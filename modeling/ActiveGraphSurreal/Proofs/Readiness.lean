import ActiveGraphSurreal.Library.Steps
import ActiveGraphSurreal.Proofs.Brackets
import ActiveGraphSurreal.Proofs.Tailing

/-!
# How a projection becomes ready

A projection that is not ready becomes ready by the mark of a caller, when a graph store is
opened for the first time, or at the end of a replay: after the projection was cleared, the log
was read and every event was handled.
-/

namespace ActiveGraphSurreal

open Library Setting

set_option linter.unusedSectionVars false

variable {F X : Type} [Json.ScalarText F] {env : Env F X} {sdk : Sdk} {t : Tables}

/-! ### The writes of a status -/

/-- The write changes no status. -/
def Write.OffStatus : Write → Prop
  | .projection _ _ => False
  | _ => True

lemma exec_offStatus {st : Stmt} (hst : st.OffStatus) {r : st.Reply} {ws : List Write}
    (hexec : st.exec sdk t = .ok (r, ws)) : ∀ w ∈ ws, w.OffStatus := by
  have hone : ∀ {w : Write}, ws = [w] → w.OffStatus → ∀ w ∈ ws, w.OffStatus := by
    rintro w rfl hw w' hw'
    rw [List.mem_singleton.mp hw']
    exact hw
  have hwrites : ∀ {reply : st.Reply} {ws' : List Write}, st.exec sdk t = .ok (reply, ws') →
      ws = ws' := fun hok => (Prod.mk.inj (Except.ok.inj (hexec.symm.trans hok))).2
  have hread : ws = [] → ∀ w ∈ ws, w.OffStatus := by
    rintro rfl w hw
    cases hw
  have hrun : ∀ {key : String} {f : RunRow → RunRow}, ws = (update t.run key f).2 →
      ∀ w ∈ ws, w.OffStatus := by
    rintro key f rfl w hw
    unfold update at hw
    split at hw
    · cases hw
    · rw [List.mem_singleton.mp hw]
      trivial
  by_cases hcontents : st.OnContents
  · intro w hw
    have hentity : w.OnEntities := exec_entities hcontents hexec w hw
    cases w with
    | projection key row => exact hentity.elim
    | _ => trivial
  cases st with
  | connect => exact hread (hwrites rfl)
  | selectSchema =>
    simp only [Stmt.exec] at hexec
    split at hexec
    · exact hread (Prod.mk.inj (Except.ok.inj hexec)).2.symm
    · cases hexec
  | define ddl =>
    cases ddl with
    | table table =>
      have hdefine := hwrites rfl
      split at hdefine
      · exact hread hdefine
      · exact hone hdefine trivial
    | _ => exact hread (hwrites rfl)
  | createSchema row =>
    simp only [Stmt.exec] at hexec
    split at hexec
    · cases hexec
    · exact hone (Prod.mk.inj (Except.ok.inj hexec)).2.symm trivial
  | updateSchemaVersion version =>
    simp only [Stmt.exec] at hexec
    split at hexec
    · exact hread (Prod.mk.inj (Except.ok.inj hexec)).2.symm
    · exact hone (Prod.mk.inj (Except.ok.inj hexec)).2.symm trivial
  | timeNow => exact hread (hwrites rfl)
  | selectRun record => exact hread (hwrites rfl)
  | createRun record content => exact hone (create_writes hexec) trivial
  | mergeHead record nextSeq headHash =>
    exact hrun (congrArg Prod.snd (Except.ok.inj hexec).symm)
  | mergeRun record patch => exact hrun (congrArg Prod.snd (Except.ok.inj hexec).symm)
  | selectEvent record => exact hread (hwrites rfl)
  | selectEvents scope runId => exact hread (hwrites rfl)
  | countEvents scope runId =>
    simp only [Stmt.exec] at hexec
    split at hexec
    · exact hread (Prod.mk.inj (Except.ok.inj hexec)).2.symm
    · exact hread (Prod.mk.inj (Except.ok.inj hexec)).2.symm
  | createEvent record content => exact hone (create_writes hexec) trivial
  | deleteEventsAfter scope runId cutoffSeq =>
    rw [hwrites rfl]
    intro w hw
    obtain ⟨key, -, rfl⟩ := List.mem_map.mp hw
    trivial
  | createProjection record content => exact hst.elim
  | upsertProjection record content => exact hst.elim
  | _ => exact absurd trivial hcontents

lemma projection_offStatus {ws : List Write} (hws : ∀ w ∈ ws, w.OffStatus) :
    ((engine sdk).applyAll ws t).projection = t.projection := by
  induction ws generalizing t with
  | nil => rfl
  | cons w ws ih =>
    have hfirst : (w.apply t).projection = t.projection := by
      have hw : w.OffStatus := hws w (List.mem_cons_self ..)
      cases w with
      | projection key row => exact hw.elim
      | _ => rfl
    exact (ih fun w' hw' => hws w' (List.mem_cons_of_mem _ hw')).trans hfirst

variable (sdk) in
lemma kept_offStatus :
    Kept (engine sdk) Stmt.OffStatus (fun _ => True) Write.OffStatus where
  exec _ _ _ _ hst _ hexec := exec_offStatus hst hexec
  apply _ _ _ _ := trivial

/-- Transactions hold no writes of a status. -/
abbrev TxOffStatus (i : Nat) (db : Database) : Prop :=
  OwnTx (fun _ => True) Write.OffStatus i db

lemma txOffStatus_call {φ : Faults PyErr} {i : Nat} {c : Call} {r : Answer c} {db db' : Database}
    {s : TxState} (hs : (engine sdk).serve φ i c db r db') (hallowed : bracketed.allows s c)
    (htx : TxOffStatus i db) : TxOffStatus i db' := by
  have hcall : Confined Stmt.OffStatus (fun b _ => b = true) true
      (.call c fun _ => .done () : Prog Call Answer Unit) → TxOffStatus i db' := by
    intro hp
    obtain ⟨b, hb, hown, -⟩ := hp.step (kept_offStatus sdk) hs trivial fun _ => htx
    exact hown hb
  cases c with
  | begin => exact hcall ⟨rfl, fun _ => rfl⟩
  | commit => exact hcall ⟨rfl, fun _ => rfl⟩
  | cancel => exact hcall fun _ => rfl
  | query st =>
    intro tx hsome
    rw [tx_query hs] at hsome
    exact htx tx hsome
  | txQuery st =>
    have hst : st.OffStatus := by
      cases s with
      | outside => exact hallowed.elim
      | inside => exact hallowed
      | failed => exact hallowed.elim
    exact hcall ⟨⟨rfl, hst⟩, fun _ => rfl⟩

variable {lib : Framework F X} {lostCall lostAnswer : Prop}

lemma provides_txOffStatus {tr : List (ProviderLabel lib)} {c : ProviderConfig lib}
    (hrun : Provides env sdk lib lostCall lostAnswer tr c) (i : Nat) : TxOffStatus i c.shared := by
  have hkeeps := System.Run.keeps (D := bracketed) (J := fun i _ db => TxOffStatus i db)
    (fun held op => ProviderOp.closes_code held op) (fun _ _ hnone => by cases hnone) ?_ ?_ hrun
  · cases hclient : c.client i with
    | idle held => exact hkeeps.1 i held hclient
    | busy held op h p => exact (hkeeps.2 i held op h p hclient).choose_spec.1
  · intro j held op rec s hmem hserve hallowed htx
    exact txOffStatus_call hserve hallowed htx
  · intro j k held op rec s hjk hmem hserve htx tx hsome
    rw [serve_tx hserve hjk] at hsome
    exact htx tx hsome

/-! ### The calls that make a projection ready -/

variable {i : Nat} {db db' : Database} {record : RecordId .agProjection}

/-- A call that makes a projection ready creates its record or sets its status. -/
theorem readying_call {φ : Faults PyErr} {c : Call} {r : Answer c}
    (hs : (engine sdk).serve φ i c db r db') (htx : TxOffStatus i db)
    (hbefore : db.tables.statusOf record ≠ some "ready")
    (hready : db'.tables.statusOf record = some "ready") :
    (∃ content, c = .query (.createProjection record content) ∧
      db.tables.statusOf record = none) ∨
    ∃ content, c = .query (.upsertProjection record content) ∧ content.status = "ready" := by
  have hsame : ¬ db'.tables.projection = db.tables.projection := by
    intro hsame
    unfold Tables.statusOf at hbefore hready
    rw [hsame] at hready
    exact hbefore hready
  have hperform : db' = ((engine sdk).perform i c db).2 := by
    rcases hs with hs | ⟨e, -, -, ⟨-, rfl⟩ | ⟨-, hs⟩⟩
    · exact congrArg Prod.snd hs
    · exact absurd rfl hsame
    · exact hs
  subst hperform
  rcases (engine sdk).perform_tables i c db with ⟨htables, -⟩ |
    ⟨st, reply, ws, rfl, hexec, -, htables, -⟩ | ⟨tx, rfl, hsome, -, -, htables, -⟩
  · exact absurd (congrArg Tables.projection htables) hsame
  · -- a query: its write is to the record itself
    by_cases hst : st.OffStatus
    · rw [htables] at hsame
      exact absurd (projection_offStatus (exec_offStatus hst hexec)) hsame
    have hwrite : ∀ {record' : RecordId .agProjection} {content : ProjectionRow},
        ws = [.projection record'.key (some content)] →
        record' = record ∧ content.status = "ready" := by
      rintro record' content rfl
      have hlookup : ((engine sdk).perform i (.query st) db).2.tables.statusOf record =
          if record.key = record'.key then some content.status else db.tables.statusOf record := by
        unfold Tables.statusOf
        rw [htables]
        change ((db.tables.projection.write record'.key (some content)).lookup record.key).map _ = _
        rw [Records.lookup_write]
        split <;> rfl
      rw [hlookup] at hready
      split at hready
      · next hkey => exact ⟨congrArg RecordId.mk hkey.symm, Option.some.inj hready⟩
      · exact absurd hready hbefore
    cases st with
    | createProjection record' content =>
      obtain ⟨rfl, -⟩ := hwrite (create_writes hexec)
      refine .inl ⟨content, rfl, ?_⟩
      unfold Tables.statusOf
      have hnone : db.tables.projection.lookup record'.key = none := by
        change create sdk _ _ _ _ _ _ = _ at hexec
        unfold create at hexec
        split at hexec
        · cases hexec
        · next hfree => exact Option.not_isSome_iff_eq_none.mp hfree
      rw [hnone]
      rfl
    | upsertProjection record' content =>
      obtain ⟨rfl, hstatus⟩ := hwrite (upsert_writes hexec)
      exact .inr ⟨content, rfl, hstatus⟩
    | _ => exact absurd trivial hst
  · rw [htables] at hsame
    exact absurd (projection_offStatus (htx tx hsome).2) hsame

/-! ### What an operation has done before -/

section reaches

variable {ℓ α σ : Type} {P : Stmt → Prop} {serve : Server Call Answer σ} {R : σ → σ → Prop}
  {s s' : σ} {h : List (CallRec Call Answer σ)} {st : Stmt}

lemma asked_of_keeps {Q : TxState → α → Prop} {p : Prog Call Answer α} {t : TxState}
    (hp : p.Keeps (bracketing P) Q t) (hr : Prog.Reaches serve R p s h (.query st) s') : P st := by
  obtain ⟨k, hsteps⟩ := hr
  exact (hp.steps hsteps).1.2

lemma asked_of_closes {m : Py ℓ α} (hm : Closes P m) {l : ℓ}
    (hr : Prog.Reaches serve R (m l) s h (.query st) s') : P st := asked_of_keeps (hm l) hr

lemma asked_of_confined {M : Bool → α → Prop} {b : Bool} {p : Prog Call Answer α}
    (hp : Confined P M b p) (hr : Prog.Reaches serve R p s h (.query st) s') : P st := by
  obtain ⟨k, hsteps⟩ := hr
  obtain ⟨b', hrest⟩ := hp.steps hsteps
  exact hrest.1

lemma kept_of_ends {I : ℓ → Prop} {m : Py ℓ α} (hm : KeepsTo P I false m) {l l' : ℓ} (hl : I l)
    {r : Except PyErr α} (hr : Prog.Ends serve R (m l) s h (r, l') s') : I l' := by
  obtain ⟨b', hend⟩ := (hm l false hl nofun).steps hr
  exact hend.2

end reaches

lemma closes_project (runId : String) (events : List (Event F X)) :
    OffStatus (project env lib runId events) := by
  unfold project
  refine (closes_lift _).bind fun _ => (closes_interpret _).bind fun graph => ?_
  exact (closes_replayEvents graph events).bind fun graph => closes_lift _

section readiness

variable (env sdk lib lostCall lostAnswer i)

/-- A method has made its calls among those of others and ended. -/
def EndsAmong {ℓ α : Type} (m : Py ℓ α) (l : ℓ) (h : Hist) (r : Except PyErr α) (l' : ℓ) : Prop :=
  ∃ s s', Prog.Ends ((engine sdk).serve (faults lostCall lostAnswer) i) ((guarded env).Rely i)
    (m l) s h (r, l') s'

/-- The calls of a replay up to its mark: the projection was marked as rebuilding and cleared,
the whole log of the run was read, and the graph has handled all its events. -/
def RebuiltBy (stores : Stores) (h : Hist) : Prop :=
  ∃ h₁ h₂ h₃ L events graph stores₁ stores₂, h = h₁ ++ h₂ ++ h₃ ∧
    EndsAmong env sdk lostCall lostAnswer i (onGraph GraphStore.beginRebuild) stores h₁ (.ok ())
      stores₁ ∧
    Reads env stores.events.address h₂ L L ∧
    iterated env stores.events.runId L none none = .ok events ∧
    EndsAmong env sdk lostCall lostAnswer i (project env lib stores.events.runId events) stores₁ h₃
      (.ok graph) stores₂

/-- How an operation comes to make a projection ready. -/
inductive Readies (held : Held) (record : RecordId .agProjection) (t : Tables) (h : Hist) :
    ProviderOp F X → Prop
  | created {runId scope} (hrecord : projectionKey env (scope, runId) = .ok record)
      (hnone : t.statusOf record = none) : Readies held record t h (.graph (.open_ runId scope))
  | marked {store} (hstore : held.graph = some store) (hrecord : store.projectionRecord = record) :
      Readies held record t h (.graph .markReady)
  | rebuilt {stores : Stores} (hheld : held = ⟨some stores.events, some stores.graph⟩)
      (hrun : stores.events.address = stores.graph.address)
      (hrecord : stores.graph.projectionRecord = record)
      (hcalls : RebuiltBy env sdk lib lostCall lostAnswer i stores h) : Readies held record t h .replay

variable {env sdk lib lostCall lostAnswer i} {held : Held} {h : Hist} {st : Stmt} {s s' : Database}

/-- The client comes to a query of its operation. -/
abbrev Asks (env : Env F X) (sdk : Sdk) (lib : Framework F X) (lostCall lostAnswer : Prop) (i : Nat)
    (held : Held) (op : ProviderOp F X) (s : Database) (h : Hist) (st : Stmt) (s' : Database) :
    Prop :=
  Prog.Reaches ((engine sdk).serve (faults lostCall lostAnswer) i) ((guarded env).Rely i)
    (op.code env lib held) s h (.query st) s'

lemma asked_events {op : EventOp F X}
    (hr : Asks env sdk lib lostCall lostAnswer i held (.events op) s h st s') : st.OffStatus := by
  rcases Prog.reaches_bind ((guarded env).rely_refl i) hr with hr | ⟨_, _, _, _, -, -, hr⟩
  · exact asked_of_keeps (op.closes_code _) hr
  · exact absurd hr Prog.reaches_done

/-- The statement can make the projection ready. -/
def MakesReady (record : RecordId .agProjection) (t : Tables) (st : Stmt) : Prop :=
  (∃ content, st = .createProjection record content ∧ t.statusOf record = none) ∨
    ∃ content, st = .upsertProjection record content ∧ content.status = "ready"

lemma MakesReady.on (hready : MakesReady record t st) : ¬ st.OffStatus := by
  intro hoff
  rcases hready with ⟨content, rfl, -⟩ | ⟨content, rfl, -⟩
  · exact hoff
  · exact hoff

lemma MakesReady.sets (hready : MakesReady record t st) {status : String}
    (hsets : st.Sets status) : status = "ready" := by
  rcases hsets with hoff | ⟨record', content', rfl, hstatus⟩
  · exact absurd hoff hready.on
  · rcases hready with ⟨content, hst, -⟩ | ⟨content, hst, hready⟩
    · cases hst
    · obtain ⟨rfl, rfl⟩ := Stmt.upsertProjection.inj hst
      exact hstatus.symm.trans hready

lemma MakesReady.own {g : String × String} (hready : MakesReady record t st)
    (hbound : st.Bound env g) : projectionKey env g = .ok record := by
  rcases hready with ⟨content, rfl, -⟩ | ⟨content, rfl, -⟩
  · exact hbound.of.1
  · exact hbound.of.1

/-- What a graph store asks to make a projection ready. -/
lemma readies_graph {op : GraphOp F X}
    (hstores : ∀ store, held.graph = some store → ∃ g, store.At env g)
    (hr : Asks env sdk lib lostCall lostAnswer i held (.graph op) s h st s')
    (hready : MakesReady record t st) :
    Readies env sdk lib lostCall lostAnswer i held record t h (.graph op) := by
  have hcode : Prog.Reaches ((engine sdk).serve (faults lostCall lostAnswer) i)
      ((guarded env).Rely i) (op.code env held.graph) s h (.query st) s' := by
    rcases Prog.reaches_bind ((guarded env).rely_refl i) hr with hr | ⟨_, _, _, _, -, -, hr⟩
    · exact hr
    · exact absurd hr Prog.reaches_done
  have hqueried : op.Queried st := asked_of_keeps (op.closes_code _) hcode
  cases op with
  | open_ runId scope =>
    have hforRun : st.ForRun env (scope, runId) := by
      have hopen : (GraphOp.open_ runId scope : GraphOp F X).code env held.graph =
          (GraphStore.new env runId scope ()).bind fun x =>
            .done (x.1.map .store, x.1.toOption) := by
        cases held.graph <;> rfl
      rw [hopen] at hcode
      rcases Prog.reaches_bind ((guarded env).rely_refl i) hcode with hr | ⟨_, _, _, _, -, -, hr⟩
      · exact asked_of_confined (GraphStore.confined_new runId scope () false) hr
      · exact absurd hr Prog.reaches_done
    rcases hready with ⟨content, rfl, hnone⟩ | ⟨content, rfl, -⟩
    · rcases hforRun with ⟨g, rfl, hbound⟩ | hschema
      · exact .created hbound.of.1 hnone
      · exact hschema.elim
    · rcases hqueried with hqueried | ⟨record', content', hst⟩
      · exact hqueried.elim
      · cases hst
  | markReady =>
    cases hgraph : held.graph with
    | none =>
      rw [hgraph] at hcode
      exact absurd hcode Prog.reaches_done
    | some store =>
      obtain ⟨g, hat⟩ := hstores store hgraph
      rw [hgraph] at hcode
      have hbound : st.Bound env g :=
        asked_of_confined (confined_onGraphStore GraphStore.bound_markReady hat) hcode
      exact .marked hgraph (Except.ok.inj (hat.record.symm.trans (hready.own hbound)))
  | beginRebuild => exact absurd (hready.sets hqueried) (by decide)
  | markFailed error => exact absurd (hready.sets hqueried) (by decide)
  | _ => exact absurd hqueried hready.on

/-- A mark is set by the only call of its method. -/
lemma reaches_mark {status : String} {error : Option String} {store : GraphStore} {c : Call}
    (hr : Prog.Reaches ((engine sdk).serve (faults lostCall lostAnswer) i) ((guarded env).Rely i)
      ((do
        GraphStore.ensureOpen
        GraphStore.setProjectionStatus status error
        modify fun self => { self with rebuildingHere := false } : Py GraphStore Unit) store)
      s h c s') : h = [] := by
  obtain ⟨u, hopen, k, hsteps⟩ := Method.reaches_lift_bind hr
  cases hsteps with
  | nil hR => rfl
  | @call c k s s₁ r s₂ h q s' hR hs hk =>
    cases r with
    | error e => cases hk
    | ok u => cases hk

/-- The projection may be marked and cleared while others work. -/
lemma ends_beginRebuild {stores stores₁ : Stores} {g : String × String} {h : Hist}
    {s₁ : Database} (hat : stores.graph.At env g) (hc : Consistent env s)
    (hbegin : Prog.Ends ((engine sdk).serve (faults lostCall lostAnswer) i)
      ((guarded env).Rely i) (onGraph GraphStore.beginRebuild stores) s h (.ok (), stores₁) s₁) :
    Consistent env s₁ ∧ Past s.tables s₁.tables ∧ stores₁.events = stores.events := by
  have hkeeps : KeepsTo Stmt.OffLedger (Stores.Are (· = stores.events) (GraphStore.At env g)) false
      (onGraph GraphStore.beginRebuild) :=
    keepsTo_onGraph (GraphStore.offLedger_of_projecting GraphStore.projecting_beginRebuild)
  have hwp : (among env lostCall lostAnswer i fun _ _ _ => True).Wp sdk _ []
      (onGraph GraphStore.beginRebuild stores) s := wp_past (past_refl _)
    (wp_offLedger (fun _ _ _ _ => trivial) (hkeeps stores false ⟨rfl, hat⟩ nofun) hc nofun)
  have hend := Prog.Safe.steps ((guarded env).rely_trans i) ?_ hwp hbegin
  · obtain ⟨⟨hc₁, b, -, hsame, -⟩, hpast⟩ := hend
    exact ⟨hc₁, hpast, hsame⟩
  · rintro h' x a b ⟨⟨hca, hx⟩, hpast⟩ hR
    exact ⟨⟨hR.2.1 hca, hx⟩, past_trans _ _ _ hpast hR.1⟩

/-- The log is read as it is at one time. -/
lemma ends_readEvents (hsha : CollisionFree env) (henc : EncodesJson env)
    {stores stores' : Stores} {h : Hist} {events : List (Event F X)} (hc : Consistent env s)
    (hkey : runKey env stores.events.address = .ok stores.events.runRecord)
    (hpresent : (s.tables.ledger env stores.events.address).run ≠ none)
    (hread : Prog.Ends ((engine sdk).serve (faults lostCall lostAnswer) i) ((guarded env).Rely i)
      (onEvents (EventStore.iterEvents env none none) stores) s h (.ok events, stores') s') :
    stores' = stores ∧ ∃ L, Reads env stores.events.address h L L ∧
      iterated env stores.events.runId L none none = .ok events := by
  constructor
  · have hmakes : KeepsTo Stmt.OnLog (· = stores.events) false
        (EventStore.iterEvents env none none) := (EventStore.makes_iterEvents none none).keepsTo
    have hkept : Stores.Are (· = stores.events) (· = stores.graph) stores' :=
      kept_of_ends (keepsTo_onEvents hmakes) (l := stores) ⟨rfl, rfl⟩ hread
    obtain ⟨events', graph'⟩ := stores'
    obtain ⟨rfl, rfl⟩ : events' = stores.events ∧ graph' = stores.graph := hkept
    rfl
  · have hiter : (among env lostCall lostAnswer i fun _ _ _ => True).Wp sdk _ []
        (EventStore.iterEvents env none none stores.events) s :=
      wp_readsLog hsha henc hc hkey hpresent none none
    have hwp : (among env lostCall lostAnswer i fun _ _ _ => True).Wp sdk
        (fun h x _ => ∀ es, x.1 = .ok es → ∃ L, Reads env stores.events.address h L L ∧
          iterated env stores.events.runId L none none = .ok es) []
        (onEvents (EventStore.iterEvents env none none) stores) s :=
      Prog.safe_bind_iff.mpr (wp_mono hiter fun _ _ _ hx => hx)
    exact Prog.Safe.steps ((guarded env).rely_trans i) (fun _ _ _ _ hx _ => hx) hwp hread events rfl

/-- The guarded part of a replay makes a projection ready after its `project` only. -/
lemma readies_rebuild (hsha : CollisionFree env) (henc : EncodesJson env) {stores : Stores}
    {g : String × String} (hat : stores.graph.At env g) (hc : Consistent env s)
    (hkey : runKey env stores.events.address = .ok stores.events.runRecord)
    (hpresent : (s.tables.ledger env stores.events.address).run ≠ none)
    (hr : Prog.Reaches ((engine sdk).serve (faults lostCall lostAnswer) i) ((guarded env).Rely i)
      (rebuild env lib stores) s h (.query st) s')
    (hready : MakesReady record t st) :
    RebuiltBy env sdk lib lostCall lostAnswer i stores h := by
  have hrefl : ∀ db : Database, (guarded env).Rely i db db := (guarded env).rely_refl i
  rw [rebuild_eq] at hr
  rcases Method.reaches_bind hrefl hr with hr | ⟨⟨⟩, stores₁, s₁, h₁, h₂₃, rfl, hbegin, hr⟩
  · exact absurd (hready.sets (asked_of_closes (takes_onGraph GraphStore.closes_beginRebuild) hr))
      (by decide)
  rcases Method.reaches_bind hrefl hr with hr | ⟨events, stores₂, s₂, h₂, h₃, rfl, hread, hr⟩
  · exact absurd (asked_of_closes (takes_onEvents (EventStore.closes_iterEvents none none)) hr) hready.on
  unfold finishReplay at hr
  rcases Method.reaches_bind hrefl hr with hr | ⟨graph, stores₃, s₃, h₃, h₄, rfl, hproject, hr⟩
  · exact absurd (asked_of_closes (closes_project _ _) hr) hready.on
  have hmark : h₄ = [] := by
    rcases Method.reaches_bind hrefl hr with hr | ⟨_, _, _, _, _, -, -, hr⟩
    · rcases Prog.reaches_bind hrefl hr with hr | ⟨_, _, _, _, -, -, hr⟩
      · exact reaches_mark hr
      · exact absurd hr Prog.reaches_done
    · exact absurd hr Prog.reaches_done
  subst hmark
  obtain ⟨hc₁, hpast, hevents⟩ := ends_beginRebuild hat hc hbegin
  rw [← hevents] at hkey hpresent
  obtain ⟨rfl, L, hL, hiterated⟩ :=
    ends_readEvents hsha henc hc₁ hkey (present_of_past hpresent hpast) hread
  rw [hevents] at hL hiterated
  refine ⟨h₁, h₂, h₃, L, events, graph, stores₂, stores₃, ?_, ⟨_, _, hbegin⟩, hL, hiterated,
    ⟨_, _, hproject⟩⟩
  rw [List.append_nil, List.append_assoc]

/-- A replay makes the projection of its graph store ready, and that after its `project`. -/
lemma readies_replayGraph (hsha : CollisionFree env) (henc : EncodesJson env) (stores : Stores)
    {g : String × String} (hat : stores.graph.At env g) (hc : Consistent env s)
    (hkey : runKey env stores.events.address = .ok stores.events.runRecord)
    (hpresent : (s.tables.ledger env stores.events.address).run ≠ none)
    (hr : Prog.Reaches ((engine sdk).serve (faults lostCall lostAnswer) i) ((guarded env).Rely i)
      (replayGraph env lib stores) s h (.query st) s')
    (hready : MakesReady record t st) : stores.events.address = stores.graph.address ∧
      stores.graph.projectionRecord = record ∧
      RebuiltBy env sdk lib lostCall lostAnswer i stores h := by
  have hrefl : ∀ db : Database, (guarded env).Rely i db db := (guarded env).rely_refl i
  have hchecks : Prog.Reaches ((engine sdk).serve (faults lostCall lostAnswer) i)
      ((guarded env).Rely i) ((do
        lift (raiseIf (stores.events.runId ≠ stores.graph.runId)
          ⟨.valueError, "event and projection run_id values must match"⟩)
        lift (raiseIf (stores.events.scope ≠ stores.graph.scope)
          ⟨.valueError, "event and projection scope values must match"⟩)
        tryCatch (rebuild env lib) fun exc => do
          tryCatch (onGraph (GraphStore.markFailed (some (.inl exc)))) fun _ => pure ()
          throw exc : Py Stores lib.Graph) stores) s h (.query st) s' := hr
  obtain ⟨⟨⟩, hrunId, hscopeCheck⟩ := Method.reaches_lift_bind hchecks
  obtain ⟨⟨⟩, hscope, hguarded⟩ := Method.reaches_lift_bind hscopeCheck
  have hsame : stores.events.address = stores.graph.address :=
    Prod.ext (not_not.mp (raiseIf_eq_ok.mp hscope)) (not_not.mp (raiseIf_eq_ok.mp hrunId))
  have hevents : stores.events.At env g := by
    refine ⟨hsame.trans hat.address, ?_⟩
    rw [← hat.address, ← hsame]
    exact hkey
  have hbound : st.Bound env g := asked_of_confined
    (keepsTo_replayGraph (fun _ => id) (fun _ => id) stores false ⟨hevents, hat⟩ (fun hb => hb)) hr
  refine ⟨hsame, Except.ok.inj (hat.record.symm.trans (hready.own hbound)), ?_⟩
  rcases Method.reaches_tryCatch hrefl hguarded with hr | ⟨exc, stores₁, _, _, _, -, -, hr⟩
  · exact readies_rebuild hsha henc hat hc hkey hpresent hr hready
  · rcases Method.reaches_bind hrefl hr with hr | ⟨_, _, _, _, _, -, -, hr⟩
    · rcases Method.reaches_tryCatch hrefl hr with hr | ⟨_, _, _, _, _, -, -, hr⟩
      · exact absurd (hready.sets (asked_of_closes (takes_onGraph (GraphStore.closes_mark "failed" _)) hr))
          (by decide)
      · exact absurd hr Prog.reaches_done
    · exact absurd hr Prog.reaches_done

variable {tr : List (ProviderLabel lib)} {c c' : ProviderConfig lib} {op : ProviderOp F X}
  {p : Prog Call Answer (ProviderResult lib)} {rec : CallRec Call Answer Database}

/-- In every run a call takes a projection from another status to ready in one of three ways:
it creates the record of a projection that has none, it is the mark of a caller, or it is the
mark of a replay whose calls so far have cleared the projection, read the whole log of its run
at one time and taken every event to the graph. -/
theorem ready_only_after_replay (hsha : CollisionFree env) (henc : EncodesJson env)
    (hdict : EncodesDict env) (hrun : Provides env sdk lib lostCall lostAnswer tr c)
    (hbusy : c.client i = .busy held op h p)
    (hs : (providerSystem env sdk lib lostCall lostAnswer).Step c (.call i held op rec) c')
    (hbefore : c.shared.tables.statusOf record ≠ some "ready")
    (hready : c'.shared.tables.statusOf record = some "ready") :
    Readies env sdk lib lostCall lostAnswer i held record c.shared.tables h op := by
  let K := providerContract sdk lib lostCall lostAnswer hsha henc hdict
  have hok : K.Ok ⟨freshDatabase, fun _ => .idle ⟨none, none⟩⟩ := provides_ok hsha henc hdict
  obtain ⟨s₀, hinv, hidle, hsteps⟩ := K.steps hok (fun _ => ⟨_, rfl⟩) hrun i held op h p hbusy
  have hc : Consistent env s₀ := hinv
  have hheld : held.Settled env s₀ := hidle
  have htx : TxOffStatus i c.shared := provides_txOffStatus hrun i
  cases hs with
  | @call s cl i held op h' call k r s' hi hserve =>
    obtain ⟨-, -, rfl, rfl⟩ := Client.busy.inj (hi.symm.trans hbusy)
    have hquery := readying_call hserve htx hbefore hready
    obtain ⟨st, rfl, hstatus⟩ : ∃ st, call = .query st ∧ MakesReady record s.tables st := by
      rcases hquery with ⟨content, rfl, hnone⟩ | ⟨content, rfl, hcontent⟩
      · exact ⟨_, rfl, .inl ⟨content, rfl, hnone⟩⟩
      · exact ⟨_, rfl, .inr ⟨content, rfl, hcontent⟩⟩
    have hasks : Asks env sdk lib lostCall lostAnswer i held op s₀ h' st s := ⟨k, hsteps⟩
    cases op with
    | events op => exact absurd (asked_events hasks) hstatus.on
    | graph op => exact readies_graph hheld.graph hasks hstatus
    | replay =>
      obtain ⟨_ | events, _ | graph⟩ := held
      · exact absurd hasks Prog.reaches_done
      · exact absurd hasks Prog.reaches_done
      · exact absurd hasks Prog.reaches_done
      · obtain ⟨g, hat⟩ := hheld.graph graph rfl
        obtain ⟨l, hl, hview⟩ := hheld.events
        cases l with
        | none => cases hl
        | some handle =>
          obtain rfl : handle.store = events := Option.some.inj hl
          obtain ⟨hsees, hpresent⟩ := hview handle rfl
          rcases Prog.reaches_bind ((guarded env).rely_refl i) hasks with
            hr | ⟨_, _, _, _, -, -, hr⟩
          · obtain ⟨hsame, hrecord, hcalls⟩ :=
              readies_replayGraph hsha henc ⟨handle.store, graph⟩ hat hc hsees.record hpresent hr
                hstatus
            exact .rebuilt rfl hsame hrecord hcalls
          · exact absurd hr Prog.reaches_done

end readiness

/-! ### A replay before its mark -/

/-- A replay of a run with one event that has made all its calls but the last. -/
def almostReplayed : ProviderOrders :=
  [.start 0 (.events (.open_ "r" "s" "now")), .finish 0, .start 0 (.graph (.open_ "r" "s")),
    .finish 0, .start 0 (.events (.append (referenceEvent "a"))), .finish 0, .start 0 .replay,
    .step 0, .step 0, .step 0, .step 0, .step 0, .step 0, .step 0, .step 0]

/-- The next call of the replay makes the projection ready. -/
def readiesNext (record : RecordId .agProjection) (c : ProviderConfig referenceFramework) : Bool :=
  match c.client 0 with
  | .busy _ .replay _ (.call call _) =>
    c.shared.tables.statusOf record ≠ some "ready" &&
      ((engine referenceSdk).perform 0 call c.shared).2.tables.statusOf record = some "ready"
  | _ => false

lemma exists_readies (record : RecordId .agProjection) (c : ProviderConfig referenceFramework)
    (h : readiesNext record c = true) : ∃ held h p rec c',
      c.client 0 = .busy held .replay h p ∧
      (providerSystem (reference Unit) referenceSdk referenceFramework False False).Step c
        (.call 0 held .replay rec) c' ∧
      c.shared.tables.statusOf record ≠ some "ready" ∧
      c'.shared.tables.statusOf record = some "ready" := by
  obtain ⟨db, clients⟩ := c
  unfold readiesNext at h
  split at h
  · next held hist call k hbusy =>
    simp only [Bool.and_eq_true, decide_eq_true_eq] at h
    have hserve : (engine referenceSdk).serve (faults False False) 0 call db
        ((engine referenceSdk).perform 0 call db).1 ((engine referenceSdk).perform 0 call db).2 :=
      .inl rfl
    exact ⟨held, hist, .call call k, _, _, hbusy, .call hbusy hserve, h.1, h.2⟩
  · cases h

lemma readiesNext_almostReplayed :
    ((provided almostReplayed).2.shared.tables.eventRows "s" "r").length = 1 ∧
    readiesNext (referenceGraph ("s", "r")).projectionRecord (provided almostReplayed).2 = true := by
  decide +kernel

theorem ready_only_after_replay_almostReplayed :
    ((provided almostReplayed).2.shared.tables.eventRows "s" "r").length = 1 ∧ ∃ held h p,
      (provided almostReplayed).2.client 0 = .busy held .replay h p ∧
      Readies (reference Unit) referenceSdk referenceFramework False False 0 held
        (referenceGraph ("s", "r")).projectionRecord (provided almostReplayed).2.shared.tables h
        .replay := by
  obtain ⟨hrows, hnext⟩ := readiesNext_almostReplayed
  obtain ⟨held, h, p, rec, c', hbusy, hs, hbefore, hready⟩ := exists_readies _ _ hnext
  exact ⟨hrows, held, h, p, hbusy, ready_only_after_replay reference_collisionFree
    reference_encodesJson reference_encodesDict (provides_provided almostReplayed) hbusy hs hbefore
    hready⟩

end ActiveGraphSurreal
