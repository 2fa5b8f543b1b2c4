import ActiveGraphSurreal.Proofs.Histories
import ActiveGraphSurreal.Proofs.Provider
import ActiveGraphSurreal.Proofs.Replaying

/-!
# Logs among projections

The clients of the whole provider: event stores append, truncate, fork and describe runs, while
graph stores project and replay. What works on a projection commits nothing to a log, and the
logs of all runs together go through the steps of one abstract machine.
-/

namespace ActiveGraphSurreal

open Library Setting

set_option linter.unusedSectionVars false

variable {F X : Type} [Json.ScalarText F] {env : Env F X} {sdk : Sdk} {t : Tables}
  {g : String × String}

/-! ### Off the ledgers -/

/-- The statement reads a log or works on a projection. -/
def Stmt.OffLedger (st : Stmt) : Prop :=
  st.OnLog ∨ st.OnProjection ∨ ∃ record content, st = .createProjection record content

lemma exec_offLedger {st : Stmt} (hst : st.OffLedger) {r : st.Reply} {ws : List Write}
    (hexec : st.exec sdk t = .ok (r, ws)) : ∀ w ∈ ws, w.OnProjection := by
  rcases hst with hlog | hprojection | ⟨record, content, rfl⟩
  · intro w hw
    have hreads : (engine sdk).Reads st := reads_onLog hlog
    rw [hreads t r ws hexec] at hw
    cases hw
  · exact exec_projecting hprojection hexec
  · intro w hw
    rw [create_writes hexec] at hw
    rw [List.mem_singleton.mp hw]
    trivial

variable (sdk) in
lemma kept_offLedger :
    Kept (engine sdk) Stmt.OffLedger (fun _ => True) Write.OnProjection where
  exec _ _ _ _ hst _ hexec := exec_offLedger hst hexec
  apply _ _ _ _ := trivial

lemma ledger_onProjection {ws : List Write} (hws : ∀ w ∈ ws, w.OnProjection) (t : Tables)
    (g : String × String) : ((engine sdk).applyAll ws t).ledger env g = t.ledger env g := by
  have hsame : ((engine sdk).applyAll ws t).run = t.run ∧
      ((engine sdk).applyAll ws t).event = t.event := ledger_applyAll_projecting hws
  unfold Tables.ledger
  rw [hsame.1, hsame.2]

lemma lawful_onProjection {ws : List Write} (hws : ∀ w ∈ ws, w.OnProjection)
    (hgood : Good env t) : (guarded env).Lawful (engine sdk) ws t := by
  apply lawful_of_same hgood
  · intro w hw
    have hkind := hws w hw
    cases w with
    | projection key row => trivial
    | vertex key row => trivial
    | relation key row => trivial
    | patch key row => trivial
    | _ => exact hkind.elim
  · exact ledger_onProjection hws t

/-- A program that stays off the ledgers commits writes to projections only. -/
theorem wp_offLedger {S : Setting env} {α : Type} {R : Bool → α → Prop} {b : Bool}
    (hallowed : ∀ c ws t, (∀ w ∈ ws, w.OnProjection) → S.allowed c ws t)
    {p : Prog Call Answer α} {s : Database} {h : Hist} (hp : Confined Stmt.OffLedger R b p)
    (hc : Consistent env s)
    (hown : b = true → OwnTx (fun _ => True) Write.OnProjection S.client s) :
    S.Wp sdk (fun _ a s' => Consistent env s' ∧ ∃ b', R b' a) h p s := by
  induction p generalizing b s h with
  | done a => exact ⟨hc, b, hp⟩
  | call c k ih =>
    intro s₁ hrely r s₂ hserve
    have hc₁ : Consistent env s₁ := consistent_of_rely hc hrely
    have hown₁ : b = true → OwnTx (fun _ => True) Write.OnProjection S.client s₁ := by
      intro hb tx htx
      rw [tx_of_rely hrely] at htx
      exact hown hb tx htx
    obtain ⟨b', hp', hown', hmoves⟩ := hp.step (kept_offLedger sdk) hserve trivial hown₁
    have hguar : S.guar sdk ⟨c, s₁, r, s₂⟩ := by
      rcases hmoves with hsame | ⟨ws, hws, hcommits⟩
      · exact .inl hsame
      · exact .inr ⟨ws, hcommits, lawful_onProjection hws hc₁.1, hallowed c ws _ hws⟩
    have hc₂ : Consistent env s₂ := ((guarded env).served (engine sdk) hserve hguar hc₁).1
    exact ⟨hguar, ih r hp' hc₂ hown'⟩

/-- A method that makes queries only keeps to them and leaves its state as it is. -/
lemma Makes.keepsTo {ℓ α : Type} {P : Stmt → Prop} {I : ℓ → Prop} {begun : Bool} {m : Py ℓ α}
    (hm : Makes P m) : KeepsTo P I begun m := by
  intro l b hl _
  have hprog : ∀ p : Prog Call Answer (Except PyErr α × ℓ),
      p.CallsTo (fun c => ∃ st, c = .query st ∧ P st) (fun x => x.2 = l) →
      Confined P (fun b' x => (b = true → b' = true) ∧ I x.2) b p := by
    intro p
    induction p with
    | done x =>
      intro hx
      have hstate : x.2 = l := hx
      refine ⟨fun hb => hb, ?_⟩
      rw [hstate]
      exact hl
    | call c k ih =>
      rintro ⟨⟨st, rfl, hst⟩, hrest⟩
      exact ⟨hst, fun r => ih r (hrest r)⟩
  exact hprog _ (hm l)

/-- Writes to the schema leave the logs alone. -/
lemma tables_ofSchema {ws : List Write} (hws : ∀ w ∈ ws, w.OfSchema) :
    ((engine sdk).applyAll ws t).run = t.run ∧ ((engine sdk).applyAll ws t).event = t.event := by
  induction ws generalizing t with
  | nil => exact ⟨rfl, rfl⟩
  | cons w ws ih =>
    have hfirst : (w.apply t).run = t.run ∧ (w.apply t).event = t.event := by
      have hw : w.OfSchema := hws w (List.mem_cons_self ..)
      cases w with
      | define table => exact ⟨rfl, rfl⟩
      | schema row => exact ⟨rfl, rfl⟩
      | _ => exact hw.elim
    obtain ⟨hrun, hevent⟩ := ih (t := w.apply t) fun w' hw' => hws w' (List.mem_cons_of_mem _ hw')
    exact ⟨hrun.trans hfirst.1, hevent.trans hfirst.2⟩

/-! ### Graph stores -/

namespace GraphStore

lemma offLedger_of_projecting {begun : Bool} {α : Type} {m : Py GraphStore α}
    (hm : Projecting env g begun m) : KeepsTo Stmt.OffLedger (At env g) begun m :=
  hm.mono fun _ hst => .inr (.inl hst.projection)

lemma projecting_markFailed {begun : Bool} (error : Option (PyErr ⊕ String)) :
    Projecting env g begun (markFailed error) := by
  unfold markFailed
  refine keepsTo_ensureOpen.bind fun _ => (projecting_setProjectionStatus _ _).bind fun _ => ?_
  exact projecting_setRebuilding false

lemma offLedger_ensureProjectionRecord :
    KeepsTo Stmt.OffLedger (At env g) false ensureProjectionRecord := by
  have hread : KeepsTo Stmt.OffLedger (At env g) false projectionRow :=
    offLedger_of_projecting inside_projectionRow.projecting
  unfold ensureProjectionRecord
  refine KeepsTo.get fun self hself => hread.bind fun row => ?_
  cases row with
  | some row => exact keepsTo_pure _
  | none =>
    refine KeepsTo.tryCatch (keepsTo_query (.inr (.inr ⟨_, _, rfl⟩))) fun e => ?_
    exact hread.bind fun _ => keepsTo_lift _

/-- A constructor commits the schema and writes to projections. -/
theorem wp_new {S : Setting env} {s : Database} (hc : Consistent env s) (runId scope : String)
    (hschema : ∀ st ws t, (∀ w ∈ ws, w.OfSchema) → S.allowed (.query st) ws t)
    (hprojection : ∀ c ws t, (∀ w ∈ ws, w.OnProjection) → S.allowed c ws t) {ℓ : Type} (l : ℓ) :
    S.Wp sdk (fun _ x s' => Consistent env s' ∧
      ∀ store, x.1 = .ok store → store.At env (scope, runId)) [] (new env runId scope l) s := by
  have hopen : ∀ (self : GraphStore) s h, Consistent env s → self.address = (scope, runId) →
      S.Wp sdk (fun _ x s' => Consistent env s' ∧ ∀ u, x.1 = .ok u → x.2.At env (scope, runId)) h
        ((do
          let _ ← ensureSchema schemaVersion false
          let projectionRecord ← lift (recordId env.sha256 .agProjection [scope, runId])
          modify fun self => { self with projectionRecord }
          ensureProjectionRecord : Py GraphStore Unit) self) s := by
    intro self s h hc haddress
    rw [wp_bind]
    refine wp_mono (wp_ensureSchema hc hschema) ?_
    rintro h₁ ⟨e | version, self₁⟩ s₁ hinstalls
    · exact ⟨hinstalls.2.1, nofun⟩
    · obtain rfl : self₁ = self := hinstalls.1
      rw [wp_andThen_ok, wp_bind, wp_lift]
      cases hrecord : recordId env.sha256 .agProjection [scope, runId] with
      | error e => exact ⟨hinstalls.2.1, nofun⟩
      | ok record =>
        rw [wp_andThen_ok, wp_bind, wp_modify, wp_andThen_ok]
        have hat : At env (scope, runId) { self₁ with projectionRecord := record } :=
          ⟨haddress, hrecord⟩
        refine wp_mono (wp_offLedger hprojection
          (offLedger_ensureProjectionRecord _ false hat nofun) hinstalls.2.1 nofun) ?_
        rintro h₂ x s₂ ⟨hc₂, -, -, hx⟩
        exact ⟨hc₂, fun _ _ => hx⟩
  have hconstruct : S.Wp sdk (fun _ x s' => Consistent env s' ∧
      ∀ u, x.1 = .ok u → x.2.At env (scope, runId)) [] (construct env runId scope blank) s := by
    unfold construct
    refine wp_guard (fun _ => ⟨hc, nofun⟩) fun _ => wp_guard (fun _ => ⟨hc, nofun⟩) fun _ => ?_
    rw [wp_bind, wp_modify, wp_andThen_ok, wp_bind]
    refine wp_ofSchema ofSchema_connect hc hschema ?_
    intro s₀ r s₁ _ _ hc₁ _ _
    cases r with
    | error e => exact ⟨hc₁, nofun⟩
    | ok u =>
      rw [wp_done, wp_andThen_ok, wp_tryCatch]
      refine wp_mono (hopen _ s₁ _ hc₁ rfl) ?_
      rintro h₂ ⟨e | u, self₂⟩ s₂ hx
      · exact ⟨hx.1, nofun⟩
      · exact hx
  unfold new
  refine Prog.safe_bind_iff.mpr (wp_mono hconstruct ?_)
  rintro h ⟨e | u, self⟩ s' hx
  · exact ⟨hx.1, nofun⟩
  · refine ⟨hx.1, fun store hstore => ?_⟩
    obtain rfl := Except.ok.inj hstore
    exact hx.2 u rfl

end GraphStore

/-! ### The contract of the whole provider -/

variable {lib : Framework F X} {lostCall lostAnswer : Prop} {held : Held}

/-- The code of an operation depends on the store of its handle only. -/
lemma EventOp.code_congr {l l' : Option (Handle F)} (h : l.map (·.store) = l'.map (·.store))
    (op : EventOp F X) : op.code env l = op.code env l' := by
  cases l with
  | none =>
    cases l' with
    | none => rfl
    | some handle' => cases h
  | some handle =>
    cases l' with
    | none => cases h
    | some handle' =>
      have hstore : handle.store = handle'.store := Option.some.inj h
      cases op with
      | open_ runId scope now => rfl
      | _ =>
        simp only [EventOp.code]
        rw [hstore]

lemma EventOp.finish_store (handle : Handle F) (op : EventOp F X) (h : Hist) (x : EventResult F X) :
    (op.finish (some handle) h x).map (·.store) = (x.2 <|> some handle.store) := by
  obtain ⟨r, store⟩ := x
  cases store with
  | none => rfl
  | some store =>
    cases op with
    | append event => cases r <;> rfl
    | truncateAfter id => cases r <;> rfl
    | _ => rfl

def ProviderAllows (env : Env F X) (sdk : Sdk) (held : Held) :
    ProviderOp F X → Call → List Write → Tables → Prop
  | .events op, c, ws, t => ∃ l : Option (Handle F), l.map (·.store) = held.events ∧
      Allows env sdk l op c ws t
  | .graph _, _, ws, _ | .replay, _, ws, _ =>
      (∀ w ∈ ws, w.OfSchema) ∨ ∀ w ∈ ws, w.OnProjection

/-- What a client without an operation knows of its stores. -/
structure Held.Settled (env : Env F X) (db : Database) (held : Held) : Prop where
  events : ∃ l : Option (Handle F), l.map (·.store) = held.events ∧ Idle env l db
  graph : ∀ store, held.graph = some store → ∃ g, store.At env g

lemma Held.Settled.past {s s' : Database} (h : held.Settled env s)
    (hpast : Past s.tables s'.tables) : held.Settled env s' := by
  obtain ⟨l, hl, hidle⟩ := h.events
  exact ⟨⟨l, hl, idle_of_past hidle hpast⟩, h.graph⟩

/-- What an operation on a log reports. An iteration that returns has read one list of the run,
with its rows and its run row, and returns the entries of that list. -/
def ProviderReports (env : Env F X) (held : Held) :
    ProviderOp F X → Hist → Except PyErr (ProviderValue lib) → Prop
  | .events op, h, r => ∃ (l : Option (Handle F)) (x : Except PyErr (EventValue F X)),
      l.map (·.store) = held.events ∧ r = x.map .events ∧ Outcome env l op h x ∧
      ∀ after until_ es, op = .iterEvents after until_ → x = .ok (.events es) →
        ∃ store L, held.events = some store ∧ Reads env store.address h L L ∧
          iterated env store.runId L after until_ = .ok es
  | _, _, _ => True

section safety

variable {i : Nat} {s : Database}

lemma wp_allows {allowed allowed' : Call → List Write → Tables → Prop}
    (hallowed : ∀ c ws t, allowed c ws t → allowed' c ws t) {α : Type}
    {Q : Hist → α → Database → Prop} {p : Prog Call Answer α} {h : Hist}
    (hp : (among env lostCall lostAnswer i allowed).Wp sdk Q h p s) :
    (among env lostCall lostAnswer i allowed').Wp sdk Q h p s := by
  induction p generalizing h s with
  | done a => exact hp
  | call c k ih =>
    intro s₁ hrely r s₂ hserve
    obtain ⟨hguar, hrest⟩ := hp s₁ hrely r s₂ hserve
    refine ⟨?_, ih r hrest⟩
    rcases hguar with hsame | ⟨ws, hcommits, hlawful, hallows⟩
    · exact .inl hsame
    · exact .inr ⟨ws, hcommits, hlawful, hallowed _ _ _ hallows⟩

lemma wp_and {S : Setting env} {α : Type} {Q Q' : Hist → α → Database → Prop}
    {p : Prog Call Answer α} {h : Hist} (hp : S.Wp sdk Q h p s) (hp' : S.Wp sdk Q' h p s) :
    S.Wp sdk (fun h a s => Q h a s ∧ Q' h a s) h p s := by
  induction p generalizing h s with
  | done a => exact ⟨hp, hp'⟩
  | call c k ih =>
    intro s₁ hrely r s₂ hserve
    obtain ⟨hguar, hrest⟩ := hp s₁ hrely r s₂ hserve
    exact ⟨hguar, ih r hrest (hp' s₁ hrely r s₂ hserve).2⟩

/-- A client of the provider at work among others. -/
abbrev providerClient (env : Env F X) (sdk : Sdk) (lostCall lostAnswer : Prop) (i : Nat)
    (held : Held) (op : ProviderOp F X) : Setting env :=
  among env lostCall lostAnswer i (ProviderAllows env sdk held op)

/-- An iteration that returns has read one list of the run and returns its events. -/
lemma wp_readsLog (hsha : CollisionFree env) (henc : EncodesJson env) (hc : Consistent env s)
    {allowed : Call → List Write → Tables → Prop} {store : EventStore}
    (hkey : runKey env store.address = .ok store.runRecord)
    (hpresent : (s.tables.ledger env store.address).run ≠ none) (after until_ : Option String) :
    (among env lostCall lostAnswer i allowed).Wp sdk (fun h x _ => ∀ es, x.1 = .ok es →
      ∃ L, Reads env store.address h L L ∧ iterated env store.runId L after until_ = .ok es) []
      (EventStore.iterEvents env after until_ store) s := by
  have hlater : ∀ s' : Database, Past s.tables s'.tables →
      (s'.tables.ledger env store.address).run ≠ none :=
    fun s' hpast => present_of_past hpresent hpast
  refine wp_mono (wp_iterEvents (S := among env lostCall lostAnswer i allowed) hsha henc hc hkey
    hlater after until_) ?_
  rintro h ⟨r, store'⟩ s' ⟨-, -, -, v, hverdict, hr⟩ es hx
  obtain rfl : r = _ := hr
  cases hverdict with
  | closed hclosed he => cases hx
  | lost hlost he => cases hx
  | torn hreads hne hopen he => cases hx
  | @agreed h row s₁ L hreads hd hopen hgood hview hhead =>
    refine ⟨L, hreads, ?_⟩
    have hiterated : ((.ok (chainRows env store.scope store.runId L, row) :
        Except PyErr (List EventRow × RunRow)).bind fun p =>
        iterated (X := X) env store.runId (decodeRows p.1) after until_) =
        iterated env store.runId L after until_ := by
      simp only [Except.bind, decodeRows_chainRows]
    exact hiterated.symm.trans hx

variable (sdk lostCall lostAnswer i) in
/-- An iteration reports what it has read, besides what every operation ends in. -/
lemma wp_reports (hsha : CollisionFree env) (henc : EncodesJson env) (hdict : EncodesDict env)
    (hc : Consistent env s) {l : Option (Handle F)} (hidle : Idle env l s) (op : EventOp F X) :
    (client env sdk lostCall lostAnswer i l op).Wp sdk (fun h x s' => Ended env l op h x s' ∧
      ∀ after until_ es, op = .iterEvents after until_ → x.1 = .ok (.events es) →
        ∃ store L, l.map (·.store) = some store ∧ Reads env store.address h L L ∧
          iterated env store.runId L after until_ = .ok es) [] (op.code env l) s := by
  have hcode := safe_code sdk lostCall lostAnswer i hsha henc hdict l op hc hidle
  cases op with
  | iterEvents after until_ =>
    cases l with
    | none => exact ⟨hcode, fun _ _ _ _ hx => by cases hx⟩
    | some handle =>
      have hiter : (client env sdk lostCall lostAnswer i (some handle)
          (.iterEvents (F := F) (X := X) after until_)).Wp sdk _ []
          (EventStore.iterEvents env after until_ handle.store) s :=
        wp_readsLog hsha henc hc (hidle handle rfl).1.record (hidle handle rfl).2 after until_
      refine wp_and hcode (wp_onStore hiter ?_)
      rintro h ⟨r, store⟩ s' hreads after' until' es hop hx
      obtain ⟨rfl, rfl⟩ := EventOp.iterEvents.inj hop
      cases r with
      | error e => cases hx
      | ok es' =>
        cases hx
        obtain ⟨L, hL, hes⟩ := hreads _ rfl
        exact ⟨handle.store, L, rfl, hL, hes⟩
  | _ => exact wp_mono hcode fun h x s' hx => ⟨hx, fun _ _ _ hop => by cases hop⟩

/-- A replay keeps off the ledgers, whatever it keeps of its event store. -/
lemma offLedger_replayGraph {I : EventStore → Prop} :
    KeepsTo Stmt.OffLedger (Stores.Are I (GraphStore.At env g)) false (replayGraph env lib) := by
  have hcode : ∀ c : GraphCall F X, KeepsTo Stmt.OffLedger (GraphStore.At env g) false
      (c.code env) := fun c => GraphStore.offLedger_of_projecting (inside_code c).projecting
  have hread : KeepsTo Stmt.OffLedger I false
      (EventStore.iterEvents env none none) := by
    have hmakes : Makes Stmt.OffLedger (EventStore.iterEvents env none none) :=
      (EventStore.makes_iterEvents none none).mono fun _ hst => .inl hst
    exact hmakes.keepsTo
  have hmark : ∀ {m : Py GraphStore Unit}, GraphStore.Projecting env g false m →
      KeepsTo Stmt.OffLedger (Stores.Are I (GraphStore.At env g)) false
        (onGraph m) := fun hm => keepsTo_onGraph (GraphStore.offLedger_of_projecting hm)
  have hrebuild : KeepsTo Stmt.OffLedger
      (Stores.Are I (GraphStore.At env g)) false (rebuild env lib) := by
    unfold rebuild
    refine KeepsTo.get fun stores _ => (hmark GraphStore.projecting_beginRebuild).bind fun _ => ?_
    refine (keepsTo_onEvents hread).bind fun events => (keepsTo_lift _).bind fun _ => ?_
    refine (keepsTo_interpret hcode _).bind fun graph => ?_
    refine (keepsTo_replayEvents hcode graph events).bind fun graph => ?_
    refine (keepsTo_lift _).bind fun graph => ?_
    exact (hmark GraphStore.projecting_markReady).bind fun _ => keepsTo_pure graph
  unfold replayGraph
  refine KeepsTo.get fun stores _ => (keepsTo_lift _).bind fun _ => ?_
  refine (keepsTo_lift _).bind fun _ => ?_
  refine KeepsTo.tryCatch hrebuild fun exc => KeepsTo.bind ?_ fun _ => keepsTo_throw exc
  exact KeepsTo.tryCatch (hmark (GraphStore.projecting_markFailed _)) fun _ => keepsTo_pure ()

/-- What every operation of the provider ends in. -/
def ProviderEnded (env : Env F X) (lib : Framework F X) (held : Held) (op : ProviderOp F X)
    (h : Hist) (a : ProviderResult lib) (db : Database) : Prop :=
  a.2.Settled env db ∧ ProviderReports env held op h a.1

lemma safe_events (hsha : CollisionFree env) (henc : EncodesJson env) (hdict : EncodesDict env)
    (hc : Consistent env s) (hheld : held.Settled env s) (op : EventOp F X) :
    (providerClient env sdk lostCall lostAnswer i held (.events op)).Wp sdk
      (ProviderEnded env lib held (.events op)) []
      (ProviderOp.code env lib held (.events op)) s := by
  obtain ⟨l, hl, hidle⟩ := hheld.events
  have hstores : (held.events.map fun store => (⟨store, []⟩ : Handle F)).map (·.store) =
      l.map (·.store) := by
    rw [hl, Option.map_map]
    exact Option.map_id'
  have hpost : ∀ {h : Hist} {x : EventResult F X} {s' : Database}, Ended env l op h x s' →
      (op.finish l h x).map (·.store) = (x.2 <|> held.events) →
      (∀ after until_ es, op = .iterEvents after until_ → x.1 = .ok (.events es) →
        ∃ store L, l.map (·.store) = some store ∧ Reads env store.address h L L ∧
          iterated env store.runId L after until_ = .ok es) →
      ProviderEnded env lib held (.events op) h
        (x.1.map .events, { held with events := x.2 <|> held.events }) s' := by
    intro h x s' hended hstore hreports
    refine ⟨⟨⟨_, hstore, hended.1⟩, hheld.graph⟩, l, x.1, hl, rfl, hended.2, ?_⟩
    rw [← hl]
    exact hreports
  have hcode := wp_reports sdk lostCall lostAnswer i hsha henc hdict hc hidle op
  refine Prog.safe_bind_iff.mpr ?_
  rw [EventOp.code_congr hstores op]
  refine wp_allows (fun c ws t hallows => ⟨l, hl, hallows⟩) ?_
  cases l with
  | some handle =>
    refine wp_mono hcode ?_
    rintro h x s' ⟨hended, hreports⟩
    refine hpost hended ?_ hreports
    rw [EventOp.finish_store, ← hl]
    rfl
  | none =>
    have hnone : held.events = none := hl.symm
    cases op with
    | open_ runId scope now =>
      refine wp_mono hcode ?_
      rintro h ⟨r, store⟩ s' ⟨hended, hreports⟩
      refine hpost hended ?_ hreports
      rw [hnone]
      cases store with
      | none => rfl
      | some store => rfl
    | _ => exact hpost hcode.1 hl hcode.2

lemma safe_graph (hc : Consistent env s) (hheld : held.Settled env s) (op : GraphOp F X) :
    (providerClient env sdk lostCall lostAnswer i held (.graph op)).Wp sdk
      (ProviderEnded env lib held (.graph op)) []
      (ProviderOp.code env lib held (.graph op)) s := by
  have hprojection : ∀ c ws t, (∀ w ∈ ws, w.OnProjection) →
      ProviderAllows env sdk held (.graph (F := F) (X := X) op) c ws t :=
    fun c ws t hws => .inr hws
  have hschema : ∀ st ws t, (∀ w ∈ ws, w.OfSchema) →
      ProviderAllows env sdk held (.graph (F := F) (X := X) op) (.query st) ws t :=
    fun st ws t hws => .inl hws
  have hend : ∀ {p : Prog Call Answer (GraphResult F X)},
      (providerClient env sdk lostCall lostAnswer i held (.graph op)).Wp sdk
        (fun _ x _ => ∀ store, x.2 = some store → ∃ g, store.At env g) [] p s →
      (providerClient env sdk lostCall lostAnswer i held (.graph op)).Wp sdk
        (ProviderEnded env lib held (.graph op)) []
        (p.bind fun x => .done (x.1.map .graph, { held with graph := x.2 <|> held.graph })) s := by
    intro p hp
    refine Prog.safe_bind_iff.mpr (wp_mono (wp_past (past_refl _) hp) ?_)
    rintro h ⟨r, store⟩ s' ⟨hstore, hpast⟩
    refine ⟨⟨(hheld.past hpast).events, fun store' hstore' => ?_⟩, trivial⟩
    cases store with
    | none => exact hheld.graph store' hstore'
    | some store => exact hstore store' hstore'
  have hmethod : ∀ {α : Type} {m : Py GraphStore α} {f : α → GraphValue F X} {store : GraphStore},
      held.graph = some store → (∀ g, GraphStore.Projecting env g false m) →
      (providerClient env sdk lostCall lostAnswer i held (.graph op)).Wp sdk
        (fun _ x _ => ∀ store, x.2 = some store → ∃ g, store.At env g) []
        (onGraphStore m f store) s := by
    intro α m f store hgraph hm
    obtain ⟨g, hat⟩ := hheld.graph store hgraph
    have hconfined := confined_onGraphStore (f := f) (GraphStore.offLedger_of_projecting (hm g)) hat
    refine wp_mono (wp_offLedger hprojection hconfined hc nofun) ?_
    rintro h x s' ⟨-, b, hx⟩ store' hstore'
    exact ⟨g, hx store' hstore'⟩
  have hopen : ∀ runId scope, (providerClient env sdk lostCall lostAnswer i held (.graph op)).Wp
      sdk (fun _ x _ => ∀ store, x.2 = some store → ∃ g, store.At env g) []
        ((GraphStore.new env runId scope ()).bind fun x =>
          (.done (x.1.map GraphValue.store, x.1.toOption) :
            Prog Call Answer (GraphResult F X))) s := by
    intro runId scope
    refine Prog.safe_bind_iff.mpr
      (wp_mono (GraphStore.wp_new hc runId scope hschema hprojection ()) ?_)
    rintro h x s' ⟨-, hx⟩ store' hstore'
    exact ⟨(scope, runId), hx store' (toOption_some hstore')⟩
  apply hend
  cases hgraph : held.graph with
  | none =>
    cases op with
    | open_ runId scope => exact hopen runId scope
    | _ => exact nofun
  | some store =>
    cases op with
    | open_ runId scope => exact hopen runId scope
    | call c => exact hmethod hgraph fun _ => (inside_code c).projecting
    | projectionStatus =>
      exact hmethod hgraph fun _ => GraphStore.inside_projectionStatus.projecting
    | beginRebuild => exact hmethod hgraph fun _ => GraphStore.projecting_beginRebuild
    | markReady => exact hmethod hgraph fun _ => GraphStore.projecting_markReady
    | markFailed error => exact hmethod hgraph fun _ => GraphStore.projecting_markFailed error
    | close =>
      exact hmethod hgraph fun _ => keepsTo_modify fun _ hself => ⟨hself.address, hself.record⟩

lemma safe_replay (hc : Consistent env s) (hheld : held.Settled env s) :
    (providerClient env sdk lostCall lostAnswer i held (.replay : ProviderOp F X)).Wp sdk
      (ProviderEnded env lib held .replay) [] (ProviderOp.code env lib held .replay) s := by
  obtain ⟨events, graph⟩ := held
  cases events with
  | none => exact ⟨hheld, trivial⟩
  | some eventStore =>
    cases graph with
    | none => exact ⟨hheld, trivial⟩
    | some graphStore =>
      obtain ⟨g, hat⟩ := hheld.graph graphStore rfl
      have hprojection : ∀ c ws t, (∀ w ∈ ws, w.OnProjection) →
          ProviderAllows env sdk ⟨some eventStore, some graphStore⟩ (.replay : ProviderOp F X) c ws
            t := fun c ws t hws => .inr hws
      have hreplay : KeepsTo Stmt.OffLedger
          (Stores.Are (· = eventStore) (GraphStore.At env g)) false (replayGraph env lib) :=
        offLedger_replayGraph
      refine Prog.safe_bind_iff.mpr (wp_mono (wp_past (past_refl _) (wp_offLedger hprojection
        (hreplay ⟨eventStore, graphStore⟩ false ⟨rfl, hat⟩ nofun) hc nofun)) ?_)
      rintro h ⟨r, stores⟩ s' ⟨⟨-, b, -, hevents, hgraph⟩, hpast⟩
      have hsame : stores.events = eventStore := hevents
      obtain ⟨l, hl, hidle⟩ := (hheld.past hpast).events
      refine ⟨⟨⟨l, ?_, hidle⟩, fun store hstore => ?_⟩, trivial⟩
      · rw [hl, hsame]
      · obtain rfl := Option.some.inj hstore
        exact ⟨g, hgraph⟩

end safety

lemma relies_refl (env : Env F X) (i : Nat) (db : Database) (_ : Consistent env db) :
    (guarded env).Rely i db db :=
  (guarded env).rely_refl i db

lemma relies_trans (env : Env F X) (i : Nat) (a b c : Database) (hab : (guarded env).Rely i a b)
    (hbc : (guarded env).Rely i b c) : (guarded env).Rely i a c :=
  (guarded env).rely_trans i a b c hab hbc

variable (sdk lib lostCall lostAnswer) in
def providerContract (hsha : CollisionFree env) (henc : EncodesJson env)
    (hdict : EncodesDict env) : Contract (providerSystem env sdk lib lostCall lostAnswer) where
  inv := Consistent env
  idle _ held s := held.Settled env s
  rely i := (guarded env).Rely i
  guar i held op rec :=
    (engine sdk).serve (faults lostCall lostAnswer) i rec.call rec.before rec.answer rec.after ∧
      (providerClient env sdk lostCall lostAnswer i held op).guar sdk rec
  post _ held op h a s := ProviderEnded env lib held op h a s
  rely_refl := relies_refl env
  rely_trans := relies_trans env
  idle_rely _ _ _ _ h hR := h.past hR.1
  post_rely _ _ _ _ _ _ _ h hR := ⟨h.1.past hR.1, h.2⟩
  guar_inv _ _ _ _ hg hc := ((guarded env).served (engine sdk) hg.1 hg.2 hc).1
  guar_rely _ j _ _ _ hij hg hc :=
    ((guarded env).served (engine sdk) hg.1 hg.2 hc).2 j (Ne.symm hij)
  safe i held op _ hheld hc := by
    apply Prog.Safe.served
    cases op with
    | events op => exact safe_events hsha henc hdict hc hheld op
    | graph op => exact safe_graph hc hheld op
    | replay => exact safe_replay hc hheld
  next _ _ _ _ _ _ h := h.1

lemma provides_ok (hsha : CollisionFree env) (henc : EncodesJson env) (hdict : EncodesDict env) :
    (providerContract sdk lib lostCall lostAnswer hsha henc hdict).Ok
      ⟨freshDatabase, fun _ => .idle ⟨none, none⟩⟩ := by
  refine ⟨⟨good_empty, fun i tx h => by cases h⟩, fun i => ?_⟩
  exact ⟨⟨none, rfl, fun handle h => by cases h⟩, fun store h => by cases h⟩

/-! ### The abstract machine -/

/-- The lists of events of all runs. -/
abbrev Logs (F : Type) [Json.ScalarText F] := String × String → List (LogEvent F)

def logs (db : Database) : Logs F := fun g => db.tables.events g

/-- What a step of the provider does to the logs. An append goes onto the list that its store
expects and a truncation cuts that list; a fork copies a prefix to a run without events. -/
inductive LogStep (env : Env F X) : Logs F → ProviderLabel lib → Logs F → Prop
  | stay {L e} : LogStep env L e L
  | append {L i held store event rec e} (hheld : held.events = some store)
      (hcall : rec.call = .commit) (hlog : rec.after.log ≠ rec.before.log)
      (hsees : store.Sees env (L store.address)) (hnormal : Normal env event e)
      (hnew : e.id ∉ (L store.address).map (·.id)) :
      LogStep env L (.call i held (.events (.append event)) rec)
        (Function.update L store.address (L store.address ++ [e]))
  | truncate {L i held store id rec pre e post} (hheld : held.events = some store)
      (hcall : rec.call = .commit) (hlog : rec.after.log ≠ rec.before.log)
      (hsees : store.Sees env (L store.address)) (hlist : L store.address = pre ++ e :: post)
      (hid : e.id = id) :
      LogStep env L (.call i held (.events (.truncateAfter id)) rec)
        (Function.update L store.address (pre ++ [e]))
  | fork {L i held store newRunId id label now now' rec pre e post}
      (hheld : held.events = some store) (hcall : rec.call = .commit)
      (hlog : rec.after.log ≠ rec.before.log) (hparent : L store.address = pre ++ e :: post)
      (hid : e.id = id) (hnew : L (store.scope, newRunId) = []) :
      LogStep env L (.call i held (.events (.forkPrefix newRunId id label now now')) rec)
        (Function.update L (store.scope, newRunId) (pre ++ [e]))

/-- The logs at the end of a trace of the abstract machine. -/
inductive LogRun (env : Env F X) : List (ProviderLabel lib) → Logs F → Prop
  | nil : LogRun env [] fun _ => []
  | snoc {tr L e L'} (hr : LogRun env tr L) (hs : LogStep env L e L') : LogRun env (tr ++ [e]) L'

lemma logs_of_move {t t' : Tables} {L : List (LogEvent F)} (hgood : Good env t)
    (hgood' : Good env t') (h : Move env t t' g L) :
    (fun g' => t'.events g' : Logs F) = Function.update (fun g' => t.events g') g L := by
  funext g'
  by_cases hg : g' = g
  · subst hg
    rw [Function.update_self]
    exact events_of_move hgood' h
  · rw [Function.update_of_ne hg]
    exact events_of_move_other hgood hgood' h hg

/-- What the commit of an operation on a log does to the logs. -/
lemma logStep_events {i : Nat} {op : EventOp F X} {rec : Rec} {ws : List Write}
    (hgood : Good env rec.before.tables) (hgood' : Good env rec.after.tables)
    (hcommits : (engine sdk).Commits ws rec.before rec.after)
    (hallows : ProviderAllows env sdk held (.events op) rec.call ws rec.before.tables) :
    LogStep env (logs rec.before) (.call i held (.events op) rec : ProviderLabel lib)
      (logs rec.after) := by
  obtain ⟨l, hl, hallows⟩ := hallows
  have hlog := log_ne hcommits
  have htables := hcommits.1
  have hstay : ∀ {e : ProviderLabel lib}, (∀ g : String × String,
      (rec.after.tables.events g : List (LogEvent F)) = rec.before.tables.events g) →
      LogStep env (logs rec.before) e (logs rec.after) := by
    intro e hsame
    have hlogs : (logs rec.after : Logs F) = logs rec.before := funext hsame
    rw [hlogs]
    exact .stay
  have hschema : (∀ w ∈ ws, w.OfSchema) → ∀ g : String × String,
      (rec.after.tables.events g : List (LogEvent F)) = rec.before.tables.events g := by
    intro hws g
    rw [htables] at hgood' ⊢
    exact events_of_ofSchema hgood hgood' hws
  have hcreates : ∀ {g'}, Creates env sdk g' ws rec.before.tables → ∀ g : String × String,
      (rec.after.tables.events g : List (LogEvent F)) = rec.before.tables.events g := by
    intro g' hws g
    rw [htables] at hgood' ⊢
    exact events_of_creates hgood hgood' hws
  have hmoves : ∀ {g' : String × String} {M : List (LogEvent F)},
      Move env rec.before.tables ((engine sdk).applyAll ws rec.before.tables) g' M →
      logs rec.after = Function.update (logs rec.before) g' M := by
    intro g' M hmove
    rw [← htables] at hmove
    exact logs_of_move hgood hgood' hmove
  cases l with
  | none =>
    cases op with
    | open_ runId scope now =>
      rcases hallows.2 with hws | hws
      · exact hstay (hschema hws)
      · exact hstay (hcreates hws)
    | _ => exact hallows.elim
  | some handle =>
    have hheld : held.events = some handle.store := hl.symm
    cases op with
    | open_ runId scope now =>
      rcases hallows.2 with hws | hws
      · exact hstay (hschema hws)
      · exact hstay (hcreates hws)
    | append event =>
      obtain ⟨hcall, hsees, hview, M, ⟨e, hnormal, hnew, rfl⟩, hmove⟩ := hallows
      have hlist : (logs rec.before handle.store.address : List (LogEvent F)) = handle.view := hview
      rw [hmoves hmove, ← hlist]
      rw [← hlist] at hsees hnew
      exact .append hheld hcall hlog hsees hnormal hnew
    | truncateAfter id =>
      obtain ⟨hcall, hsees, hview, M, ⟨pre, e, post, hL, hid, rfl⟩, hmove⟩ := hallows
      have hlist : (logs rec.before handle.store.address : List (LogEvent F)) = handle.view := hview
      rw [hmoves hmove]
      rw [← hlist] at hsees hL
      exact .truncate hheld hcall hlog hsees hL hid
    | forkPrefix newRunId id label now now' =>
      rcases hallows with ⟨hcall, habsent, ⟨pre, e, post, hparent, hid, hmove⟩, -⟩ |
        ⟨hcall, hws | hws⟩
      · rw [hmoves hmove]
        exact .fork hheld hcall hlog hparent hid (events_of_absent hgood.keyed habsent)
      · exact hstay (hschema hws)
      · exact hstay (hcreates hws)
    | upsertRun patch createdAt =>
      rcases hallows.2 with hws | hws
      · exact hstay (hcreates hws)
      · refine hstay fun g => ?_
        have hmove : Move env rec.before.tables rec.after.tables handle.store.address
            (rec.before.tables.events handle.store.address : List (LogEvent F)) := by
          rw [htables]
          exact hws
        exact events_of_move_same hgood hgood' hmove
    | _ => exact hallows.elim

lemma logs_offLedger {s s' : Database} {ws : List Write} (hgood : Good env s.tables)
    (hgood' : Good env s'.tables) (hcommits : (engine sdk).Commits ws s s')
    (hws : (∀ w ∈ ws, w.OfSchema) ∨ ∀ w ∈ ws, w.OnProjection) :
    (logs s' : Logs F) = logs s := by
  funext g
  apply events_congr hgood' hgood
  rw [hcommits.1]
  rcases hws with hws | hws
  · exact ledger_ofSchema hws _ g
  · exact ledger_onProjection hws _ g

/-- One step of the provider takes the logs one step further. -/
lemma logStep_step (hsha : CollisionFree env) (henc : EncodesJson env) (hdict : EncodesDict env)
    {tr : List (ProviderLabel lib)} {c c' : ProviderConfig lib} {e : ProviderLabel lib}
    (hr : Provides env sdk lib lostCall lostAnswer tr c)
    (hs : (providerSystem env sdk lib lostCall lostAnswer).Step c e c') :
    LogStep env (logs c.shared) e (logs c'.shared) := by
  let K := providerContract sdk lib lostCall lostAnswer hsha henc hdict
  have hok : K.Ok c := (K.sound (provides_ok hsha henc hdict) hr).1
  obtain ⟨hok', hlabel⟩ := K.step_ok hok hs
  have hgood : Good env c.shared.tables := hok.1.1
  have hgood' : Good env c'.shared.tables := hok'.1.1
  cases hs with
  | start op hi => exact .stay
  | finish hi => exact .stay
  | @call s cl i held op h call k r s' hi hserve =>
    have hlogs : (logs s' : Logs F) = logs s → LogStep env (logs s)
        (.call i held op ⟨call, s, r, s'⟩ : ProviderLabel lib) (logs s') := by
      intro hsame
      rw [hsame]
      exact .stay
    rcases hlabel.2.2 with ⟨htables, -⟩ | ⟨ws, hcommits, -, hallows⟩
    · refine hlogs ?_
      unfold logs
      rw [show s'.tables = s.tables from htables]
    · cases op with
      | events op => exact logStep_events hgood hgood' hcommits hallows
      | graph op => exact hlogs (logs_offLedger hgood hgood' hcommits hallows)
      | replay => exact hlogs (logs_offLedger hgood hgood' hcommits hallows)

/-- The operation works on projections only. -/
def ProviderOp.OnProjections : ProviderOp F X → Prop
  | .events _ => False
  | .graph _ | .replay => True

/-- In every run of the provider the logs of all runs go through the steps of the abstract
machine, each is stored as the chain of its list, and no call of a graph store or of a replay
changes the records of runs or events. -/
theorem logs_run (hsha : CollisionFree env) (henc : EncodesJson env) (hdict : EncodesDict env)
    {tr : List (ProviderLabel lib)} {c : ProviderConfig lib}
    (hr : Provides env sdk lib lostCall lostAnswer tr c) :
    LogRun env tr (logs c.shared) ∧
    (∀ g, ((logs c.shared g : List (LogEvent F)).map (·.id)).Nodup ∧
      c.shared.tables.eventRows g.1 g.2 = chainRows env g.1 g.2 (logs c.shared g)) ∧
    ∀ i held op rec, .call i held op rec ∈ tr → op.OnProjections →
      rec.after.tables.run = rec.before.tables.run ∧
        rec.after.tables.event = rec.before.tables.event := by
  have hsound := (providerContract sdk lib lostCall lostAnswer hsha henc hdict).sound
    (provides_ok hsha henc hdict) hr
  have hgood : Good env c.shared.tables := hsound.1.1.1
  refine ⟨?_, fun g => ⟨nodup_events hgood g, eventRows_eq hgood g⟩, ?_⟩
  · induction hr with
    | nil =>
      have hempty : (logs freshDatabase : Logs F) = fun _ => [] := by
        funext g
        have habsent : (Tables.empty.ledger env g).Absent := ledger_empty g
        exact events_of_absent good_empty.keyed habsent
      rw [hempty]
      exact .nil
    | snoc hr hs ih =>
      have hsound := (providerContract sdk lib lostCall lostAnswer hsha henc hdict).sound
        (provides_ok hsha henc hdict) hr
      exact .snoc (ih hsound hsound.1.1.1) (logStep_step hsha henc hdict hr hs)
  · intro i held op rec hmem hop
    have hguar := (hsound.2 _ hmem).2.2
    rcases hguar with ⟨htables, -⟩ | ⟨ws, hcommits, -, hallows⟩
    · rw [show rec.after.tables = rec.before.tables from htables]
      exact ⟨rfl, rfl⟩
    · rw [show rec.after.tables = _ from hcommits.1]
      have hws : (∀ w ∈ ws, w.OfSchema) ∨ ∀ w ∈ ws, w.OnProjection := by
        cases op with
        | events op => exact hop.elim
        | graph op => exact hallows
        | replay => exact hallows
      rcases hws with hws | hws
      · exact tables_ofSchema hws
      · exact ledger_applyAll_projecting hws

/-- A client appends an event and replays the log while another one projects. -/
def loggedReplay : ProviderOrders :=
  [.start 0 (.events (.open_ "r" "s" "now")), .finish 0, .start 0 (.graph (.open_ "r" "s")),
    .finish 0, .start 1 (.graph (.open_ "r" "s")), .finish 1,
    .start 0 (.events (.append (referenceEvent "a"))), .finish 0, .start 0 .replay, .step 0,
    .start 1 (.graph .beginRebuild), .finish 1, .finish 0]

theorem logs_run_loggedReplay :
    LogRun (reference Unit) (provided loggedReplay).1 (logs (provided loggedReplay).2.shared) ∧
    (∀ g, ((logs (provided loggedReplay).2.shared g : List (LogEvent Unit)).map (·.id)).Nodup ∧
      (provided loggedReplay).2.shared.tables.eventRows g.1 g.2 =
        chainRows (reference Unit) g.1 g.2 (logs (provided loggedReplay).2.shared g)) ∧
    ∀ i held op rec, .call i held op rec ∈ (provided loggedReplay).1 → op.OnProjections →
      rec.after.tables.run = rec.before.tables.run ∧
        rec.after.tables.event = rec.before.tables.event :=
  logs_run reference_collisionFree reference_encodesJson reference_encodesDict
    (provides_provided loggedReplay)

end ActiveGraphSurreal
