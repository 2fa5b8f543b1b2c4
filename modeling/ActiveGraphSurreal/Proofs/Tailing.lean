import ActiveGraphSurreal.Library.Traces
import ActiveGraphSurreal.Proofs.ListModel
import ActiveGraphSurreal.Proofs.Logs

/-!
# Readers that follow a log

As long as nothing is cut from a log, an acknowledged append stays where it is, and a reader that
asks again and again for the events after the last one it has received gets each event once.
-/

namespace ActiveGraphSurreal

open Library

set_option linter.unusedSectionVars false

variable {F X : Type} [Json.ScalarText F] {env : Env F X} {sdk : Sdk} {lib : Framework F X}
  {lostCall lostAnswer : Prop} {g : String × String}

/-- The step commits a truncation of the run. -/
def Truncating (g : String × String) : ProviderLabel lib → Prop
  | .call _ held (.events (.truncateAfter _)) rec =>
    (∃ store, held.events = some store ∧ store.address = g) ∧ rec.call = .commit ∧
      rec.after.log ≠ rec.before.log
  | _ => False

lemma not_truncating {e : ProviderLabel lib} {op : ProviderOp F X} (he : e.op = op)
    (hop : ∀ id, op ≠ .events (.truncateAfter id)) : ¬ Truncating g e := by
  subst he
  cases e with
  | start | finish => exact id
  | call i held op rec =>
    intro h
    unfold Truncating at h
    split at h
    · next heq =>
      cases heq
      exact hop _ rfl
    · exact h

/-- A step that cuts nothing from the log of a run leaves it as a prefix. -/
lemma LogStep.grows {L L' : Logs F} {e : ProviderLabel lib} (hs : LogStep env L e L')
    (hkept : ¬ Truncating g e) : L g <+: L' g := by
  cases hs with
  | stay => exact List.prefix_rfl
  | @append i held store event rec e hheld hcall hlog hsees hnormal hnew =>
    by_cases hg : g = store.address
    · subst hg
      rw [Function.update_self]
      exact List.prefix_append _ _
    · rw [Function.update_of_ne hg]
  | @truncate i held store id rec pre e post hheld hcall hlog hsees hlist hid =>
    have hg : g ≠ store.address := by
      rintro rfl
      exact hkept ⟨⟨store, hheld, rfl⟩, hcall, hlog⟩
    rw [Function.update_of_ne hg]
  | @fork _ _ store newRunId _ _ _ _ _ _ _ _ hheld hcall hlog hparent hid hnew =>
    by_cases hg : g = (store.scope, newRunId)
    · subst hg
      rw [hnew]
      exact List.nil_prefix
    · rw [Function.update_of_ne hg]

/-- A run that cuts nothing from a log extends it. -/
lemma logs_prefix (hsha : CollisionFree env) (henc : EncodesJson env) (hdict : EncodesDict env)
    {tr₀ tr : List (ProviderLabel lib)} {c c' : ProviderConfig lib}
    (hr₀ : Provides env sdk lib lostCall lostAnswer tr₀ c)
    (hr : (providerSystem env sdk lib lostCall lostAnswer).Run c tr c')
    (hkept : ∀ e ∈ tr, ¬ Truncating g e) :
    (logs c.shared g : List (LogEvent F)) <+: logs c'.shared g := by
  refine System.Run.steps (R := fun s s' => logs s g <+: logs s' g)
    (fun _ => List.prefix_rfl) (fun _ _ _ => List.IsPrefix.trans) ?_ hr₀ hr hkept
  intro tr d e d' hr hs hkept
  exact (logStep_step hsha henc hdict hr hs).grows hkept

/-- The log before a call extends the one at the beginning of the run, and the log after it is
a prefix of the one at the end. -/
lemma logs_around (hsha : CollisionFree env) (henc : EncodesJson env) (hdict : EncodesDict env)
    {tr₀ tr : List (ProviderLabel lib)} {c c' : ProviderConfig lib}
    (hr₀ : Provides env sdk lib lostCall lostAnswer tr₀ c)
    (hr : (providerSystem env sdk lib lostCall lostAnswer).Run c tr c')
    (hkept : ∀ e ∈ tr, ¬ Truncating g e) {i : Nat} {held : Held} {op : ProviderOp F X} {rec : Rec}
    (hmem : .call i held op rec ∈ tr) :
    (logs c.shared g : List (LogEvent F)) <+: logs rec.before g ∧
      (logs rec.after g : List (LogEvent F)) <+: logs c'.shared g := by
  obtain ⟨front, rest, rfl⟩ := List.append_of_mem hmem
  obtain ⟨d, d', hfront, hs, hrest⟩ := hr.around
  have hfirst := logs_prefix hsha henc hdict hr₀ hfront fun e he =>
    hkept e (List.mem_append_left _ he)
  have hlast := logs_prefix hsha henc hdict (.snoc (hr₀.append hfront) hs) hrest fun e he =>
    hkept e (List.mem_append_right _ (List.mem_cons_of_mem _ he))
  cases hs with
  | call hi hserve => exact ⟨hfirst, hlast⟩

/-! ### Acknowledged appends -/

lemma reports_of_finish (hsha : CollisionFree env) (henc : EncodesJson env)
    (hdict : EncodesDict env) {tr : List (ProviderLabel lib)} {c : ProviderConfig lib}
    (hr : Provides env sdk lib lostCall lostAnswer tr c) {i : Nat} {held : Held}
    {op : ProviderOp F X} {h : Hist} {a : ProviderResult lib} (hmem : .finish i held op h a ∈ tr) :
    ProviderReports env held op h a.1 := by
  obtain ⟨s, -, hpost⟩ := ((providerContract sdk lib lostCall lostAnswer hsha henc hdict).sound
    (provides_ok hsha henc hdict) hr).2 _ hmem
  exact hpost.2

/-- What is known of a call of a run. -/
structure CallFacts (env : Env F X) (sdk : Sdk) (held : Held) (op : ProviderOp F X) (rec : Rec) :
    Prop where
  good : Good env rec.before.tables
  good' : Good env rec.after.tables
  commits : rec.after.log ≠ rec.before.log →
    ∃ ws, ProviderAllows env sdk held op rec.call ws rec.before.tables

lemma callFacts (hsha : CollisionFree env) (henc : EncodesJson env) (hdict : EncodesDict env)
    {tr : List (ProviderLabel lib)} {c : ProviderConfig lib}
    (hr : Provides env sdk lib lostCall lostAnswer tr c) {i : Nat} {held : Held}
    {op : ProviderOp F X} {rec : Rec} (hmem : .call i held op rec ∈ tr) :
    CallFacts env sdk held op rec := by
  let K := providerContract sdk lib lostCall lostAnswer hsha henc hdict
  have hlabel := (K.sound (provides_ok hsha henc hdict) hr).2 _ hmem
  have hconsistent : Consistent env rec.before := hlabel.1
  have hafter : Consistent env rec.after := K.guar_inv i held op rec hlabel.2 hlabel.1
  refine ⟨hconsistent.1, hafter.1, fun hlog => ?_⟩
  rcases hlabel.2.2 with ⟨-, hsame⟩ | ⟨ws, -, -, hallows⟩
  · exact absurd hsame hlog
  · exact ⟨ws, hallows⟩

/-- An append that has returned put its event where its store expected it, and the event is
there, and is the only one with its id, as long as nothing is cut from the log of the run. -/
theorem append_durable (hsha : CollisionFree env) (henc : EncodesJson env)
    (hdict : EncodesDict env) {tr₀ tr₁ : List (ProviderLabel lib)} {c : ProviderConfig lib}
    {i : Nat} {held held' : Held} {event : Event F X} {store : EventStore} {h : Hist}
    {v : ProviderValue lib}
    (hr : Provides env sdk lib lostCall lostAnswer
      (tr₀ ++ .start i held (.events (.append event)) :: tr₁) c)
    (hstore : held.events = some store)
    (hfinish : .finish i held (.events (.append event)) h (.ok v, held') ∈ tr₁)
    (hkept : ∀ e ∈ tr₁, ¬ Truncating store.address e) :
    ∃ pre e post, (logs c.shared store.address : List (LogEvent F)) = pre ++ e :: post ∧
      Normal env event e ∧ store.expectedNextSeq = pre.length ∧
      ∀ f ∈ pre ++ post, f.id ≠ event.id := by
  obtain ⟨d, hbefore, hsince⟩ := hr.split rfl
  have hidle := hsince.start_idle
  have hkept' : ∀ e ∈ .start i held (.events (.append event)) :: tr₁,
      ¬ Truncating store.address e := by
    intro e he
    rcases List.mem_cons.mp he with rfl | he
    · exact id
    · exact hkept e he
  have hmem : .finish i held (.events (.append event)) h (.ok v, held') ∈
      tr₀ ++ .start i held (.events (.append event)) :: tr₁ :=
    List.mem_append_right _ (List.mem_cons_of_mem _ hfinish)
  obtain ⟨l, x, hl, hx, houtcome, -⟩ := reports_of_finish hsha henc hdict hr hmem
  cases l with
  | none =>
    rw [hstore] at hl
    cases hl
  | some handle =>
    obtain rfl : handle.store = store := Option.some.inj (hl.trans hstore)
    have houtcome : WriteOutcome env handle (Appends env event handle.view) h x := houtcome
    cases houtcome with
    | refused hq => cases hx
    | unacked hgrows htakes => cases hx
    | @committed v s s' M hgrows htakes =>
      obtain ⟨e, hnormal, hnew, rfl⟩ := hgrows
      obtain ⟨h₁, h₂, sb, sb', rfl, -⟩ := htakes.split
      have hcall : .call i held (.events (.append event)) ⟨.commit, s, .ok (), s'⟩ ∈
          .start i held (.events (.append event)) :: tr₁ :=
        (hsince.history_since hidle).2 _ _ _ _ (List.mem_cons_of_mem _ hfinish) _
          (List.mem_append_right _ (List.mem_cons_self ..))
      have hfacts := callFacts hsha henc hdict hr (List.mem_append_right _ hcall)
      have hlist : (logs s' handle.store.address : List (LogEvent F)) = handle.view ++ [e] :=
        events_of_move hfacts.good' htakes.move
      obtain ⟨ws, l', hl', hallows⟩ := hfacts.commits (by
        obtain ⟨ks, hks⟩ := htakes.logged
        simp [hks])
      have hsees : handle.store.Sees env handle.view := by
        cases l' with
        | none => exact hallows.elim
        | some handle' =>
          have hsame : handle'.store = handle.store := Option.some.inj (hl'.trans hstore)
          have hview : handle'.view = handle.view := by
            rw [← hallows.before, hsame, ← htakes.before]
          rw [← hview, ← hsame]
          exact hallows.sees
      obtain ⟨post, hpost⟩ := (logs_around hsha henc hdict hbefore hsince hkept' hcall).2
      rw [show logs (CallRec.after _) handle.store.address = _ from hlist] at hpost
      have hend : (logs c.shared handle.store.address : List (LogEvent F)) =
          handle.view ++ e :: post := by
        rw [← hpost, List.append_assoc]
        rfl
      refine ⟨handle.view, e, post, hend, hnormal, hsees.nextSeq, ?_⟩
      have hids : ((logs c.shared handle.store.address : List (LogEvent F)).map (·.id)).Nodup :=
        ((logs_run hsha henc hdict hr).2.1 _).1
      rw [hend, List.map_append, List.map_cons, List.nodup_middle, List.nodup_cons] at hids
      intro f hf hid
      have hmap : f.id ∈ handle.view.map (·.id) ++ post.map (·.id) := by
        rw [← List.map_append]
        exact List.mem_map_of_mem hf
      rw [hid, hnormal.id] at hmap
      exact hids.1 hmap

/-- An operation that a client runs alone goes on from any run. -/
lemma Provides.alone {tr : List (ProviderLabel lib)} {c : ProviderConfig lib}
    (hr : Provides env sdk lib lostCall lostAnswer tr c) {i : Nat} {held : Held}
    (hidle : c.client i = .idle held) {op : ProviderOp F X} {a : ProviderResult lib} {db : Database}
    (hrun : (op.code env lib held).run ((engine sdk).perform i) c.shared = (a, db)) :
    ∃ tr₁ h, Provides env sdk lib lostCall lostAnswer (tr ++ .start i held op :: tr₁)
        ⟨db, Function.update c.client i (.idle a.2)⟩ ∧
      .finish i held op h a ∈ tr₁ ∧ ∀ e ∈ tr₁, e.op = op := by
  have hsteps := System.Run.operation (f := fun i => (engine sdk).perform i)
    (fun _ _ _ => Or.inl rfl) hr hidle op
  have hrun' : ((providerSystem env sdk lib lostCall lostAnswer).code held op).run
      ((engine sdk).perform i) c.shared = (a, db) := hrun
  rw [hrun'] at hsteps
  refine ⟨_, _, hsteps, List.mem_append_right _ (List.mem_singleton_self _), ?_⟩
  intro e he
  rcases List.mem_append.mp he with he | he
  · obtain ⟨rec, -, rfl⟩ := List.mem_map.mp he
    rfl
  · rw [List.mem_singleton.mp he]
    rfl

/-- An operation of an event store, run by a client that holds the store. -/
lemma run_events {op : EventOp F X} {store store' : EventStore} {i : Nat} {db db' : Database}
    {r : Except PyErr (EventValue F X)}
    (hrun : (op.code env (some ⟨store, []⟩)).run ((engine sdk).perform i) db =
      ((r, some store'), db')) :
    ((ProviderOp.events op).code env lib ⟨some store, none⟩).run ((engine sdk).perform i) db =
      ((r.map .events, ⟨some store', none⟩), db') := by
  have hbind := Prog.run_bind ((engine sdk).perform i) (op.code env (some ⟨store, []⟩))
    (fun x => (.done (x.1.map .events, { events := x.2 <|> some store, graph := none }) :
      Prog Call Answer (ProviderResult lib))) db
  rw [hrun] at hbind
  exact hbind

/-- Two handles of a run without events. -/
def twoHandles : ProviderOrders :=
  [.start 0 (.events (.open_ "r" "s" "now")), .finish 0,
    .start 1 (.events (.open_ "r" "s" "now")), .finish 1]

def openedHeld : Held := ⟨some (referenceStore ("s", "r")), none⟩

lemma tracks_twoHandles : Tracks (reference Unit) ("s", "r") (referenceStore ("s", "r")) []
    (provided twoHandles).2.shared where
  consistent := ((providerContract referenceSdk referenceFramework False False
    reference_collisionFree reference_encodesJson reference_encodesDict).sound
    (provides_ok reference_collisionFree reference_encodesJson reference_encodesDict)
    (provides_provided twoHandles)).1.1
  address := rfl
  opened := rfl
  sees := ⟨rfl, rfl, rfl⟩
  present := by decide +kernel
  events := by
    have hrows : (provided twoHandles).2.shared.tables.eventRows "s" "r" = [] := by decide +kernel
    unfold Tables.events
    rw [hrows]
    rfl

theorem append_durable_twoHandles : ∃ (c : ProviderConfig referenceFramework)
    (pre : List (LogEvent Unit)) (e : LogEvent Unit) (post : List (LogEvent Unit)),
    logs c.shared ("s", "r") = pre ++ e :: post ∧
      Normal (reference Unit) (referenceEvent "a") e ∧
      (referenceStore ("s", "r")).expectedNextSeq = pre.length ∧
      ∀ f ∈ pre ++ post, f.id ≠ "a" := by
  have hidle : (provided twoHandles).2.client 1 = .idle openedHeld := rfl
  obtain ⟨store, db, hrun, -⟩ := tracks_twoHandles.append referenceSdk 1 reference_collisionFree
    reference_encodesJson reference_encodesDict (normal_referenceEvent "a") ⟨_, rfl⟩
    List.not_mem_nil
  obtain ⟨tr₁, h, hr, hfinish, hops⟩ := (provides_provided twoHandles).alone hidle
    (run_events hrun)
  refine ⟨_, append_durable reference_collisionFree reference_encodesJson reference_encodesDict hr
    rfl hfinish ?_⟩
  intro e he
  exact not_truncating (hops e he) nofun

/-! ### Readers that go on after the last event -/

/-- What a reader has received that asks for the events after the last one it has received,
again and again and through any stores of the run, and the calls of its last question. -/
inductive Follows (g : String × String) :
    List (ProviderLabel lib) → List (Event F X) → Hist → Prop
  | nil (tr) : Follows g tr [] []
  | next {tr es h₀ i held held' store h more tr₁} (hf : Follows g tr es h₀)
      (hstore : held.events = some store) (haddress : store.address = g)
      (hfinish : .finish i held (.events (.iterEvents (es.getLast?.map (·.id)) none)) h
        (.ok (.events (.events more)), held') ∈ tr₁)
      (hkept : ∀ e ∈ tr₁, ¬ Truncating g e) :
      Follows g (tr ++ .start i held (.events (.iterEvents (es.getLast?.map (·.id)) none)) :: tr₁)
        (es ++ more) h

/-- The events after the last one of a prefix are the rest. -/
lemma iterated_rest {runId : String} {L R : List (LogEvent F)}
    (hids : ((L ++ R).map (·.id)).Nodup) :
    iterated (X := X) env runId (L ++ R)
      (((L.map (LogEvent.toEvent (X := X))).getLast?).map (·.id)) none =
      .ok (R.map LogEvent.toEvent) := by
  have hentries : entries (L ++ R)
      (((L.map (LogEvent.toEvent (X := X))).getLast?).map (·.id)) none = .ok R := by
    rcases List.eq_nil_or_concat' L with rfl | ⟨pre, e, rfl⟩
    · unfold entries position
      simp [bind, Except.bind, pure, Except.pure]
    · have hlast : ((((pre ++ [e]).map (LogEvent.toEvent (X := X))).getLast?).map (·.id)) =
          some e.id := by
        rw [List.map_append, List.map_singleton, List.getLast?_concat]
        rfl
      have hlist : pre ++ [e] ++ R = pre ++ e :: R := by
        rw [List.append_assoc]
        rfl
      rw [hlist] at hids ⊢
      rw [hlast]
      have hposition : position (pre ++ e :: R) (some e.id) = .ok (some (pre.length + 1)) := by
        change (upTo (pre ++ e :: R) e.id).elim _ _ = _
        rw [upTo_split hids]
        rfl
      have hdrop : ((pre ++ e :: R).take (pre ++ e :: R).length).drop (pre.length + 1) = R := by
        rw [List.take_length, ← List.drop_drop, List.drop_left]
        rfl
      unfold entries
      rw [hposition]
      exact congrArg Except.ok hdrop
  unfold iterated
  rw [hentries]
  rfl

/-- What a reader has received that asks again and again for what comes after it is, as long as
nothing is cut from the log, a prefix of the log: each event once, in order, and none left out.
After each question it is all that the log held when the question was answered. -/
theorem follows_exactly_once (hsha : CollisionFree env) (henc : EncodesJson env)
    (hdict : EncodesDict env) {tr : List (ProviderLabel lib)} {c : ProviderConfig lib}
    (hr : Provides env sdk lib lostCall lostAnswer tr c) {es : List (Event F X)} {h : Hist}
    (hf : Follows g tr es h) :
    ∃ L : List (LogEvent F), es = L.map LogEvent.toEvent ∧ L <+: logs c.shared g ∧
      (h ≠ [] → Reads env g h L L) := by
  induction hf generalizing c with
  | nil tr => exact ⟨[], rfl, List.nil_prefix, fun h => absurd rfl h⟩
  | @next tr es h₀ i held held' store h more tr₁ hf hstore haddress hfinish hkept ih =>
    obtain ⟨d, hbefore, hsince⟩ := hr.split rfl
    obtain ⟨L, rfl, hL, -⟩ := ih hbefore
    have hkept' : ∀ e ∈ .start i held (.events (.iterEvents
        (((L.map (LogEvent.toEvent (X := X))).getLast?).map (·.id)) none)) :: tr₁,
        ¬ Truncating g e := by
      intro e he
      rcases List.mem_cons.mp he with rfl | he
      · exact id
      · exact hkept e he
    obtain ⟨l, x, hl, hx, -, hreports⟩ := reports_of_finish hsha henc hdict hr
      (List.mem_append_right _ (List.mem_cons_of_mem _ hfinish))
    have hanswer : x = .ok (.events more) := by
      cases x with
      | error e => cases hx
      | ok v =>
        cases hx
        rfl
    obtain ⟨store', L', hstore', hreads, hmore⟩ := hreports _ _ _ rfl hanswer
    obtain rfl : store' = store := Option.some.inj (hstore'.symm.trans hstore)
    rw [haddress] at hreads
    obtain ⟨h₁, s₁, s₂, record, run, hh, hlist, -⟩ := id hreads
    have hcall := (hsince.history_since hsince.start_idle).2 _ _ _ _
      (List.mem_cons_of_mem _ hfinish) ⟨.query (.selectEvents g.1 g.2), s₁,
        .ok (chainRows env g.1 g.2 L'), s₁⟩ (by simp [hh])
    obtain ⟨hfirst, hlast⟩ := logs_around hsha henc hdict hbefore hsince hkept' hcall
    have hbetween : (logs s₁ g : List (LogEvent F)) = L' := hlist
    rw [show logs (CallRec.before _) g = logs s₁ g from rfl, hbetween] at hfirst
    rw [show logs (CallRec.after _) g = logs s₁ g from rfl, hbetween] at hlast
    obtain ⟨R, rfl⟩ := hL.trans hfirst
    have hids : ((L ++ R).map (·.id)).Nodup := by
      rw [← hlist]
      exact nodup_events (callFacts hsha henc hdict hr (List.mem_append_right _ hcall)).good g
    rw [iterated_rest hids] at hmore
    obtain rfl := Except.ok.inj hmore
    exact ⟨L ++ R, by rw [List.map_append], hlast, fun _ => hreads⟩

/-! ### A reader and a writer -/

lemma Follows.later {tr tr₁ : List (ProviderLabel lib)} {es : List (Event F X)} {h : Hist}
    (hf : Follows g tr es h) (hkept : ∀ e ∈ tr₁, ¬ Truncating g e) :
    Follows g (tr ++ tr₁) es h := by
  cases hf with
  | nil => exact .nil _
  | next hf hstore haddress hfinish hkept₀ =>
    rw [List.append_assoc, List.cons_append]
    refine .next hf hstore haddress (List.mem_append_left _ hfinish) ?_
    intro e he
    rcases List.mem_append.mp he with he | he
    · exact hkept₀ e he
    · exact hkept e he

section turns

variable {tr : List (ProviderLabel lib)} {c : ProviderConfig lib} {i : Nat} {h₀ : Hist}

/-- A writer appends an event that the reader has not asked for yet. -/
lemma Follows.append (hsha : CollisionFree env) (henc : EncodesJson env) (hdict : EncodesDict env)
    (hr : Provides env sdk lib lostCall lostAnswer tr c) {writer : EventStore}
    {L : List (LogEvent F)} (ht : Tracks env g writer L c.shared)
    (hidle : c.client i = .idle ⟨some writer, none⟩) {event : Event F X} {e : LogEvent F}
    (hnormal : Normal env event e) (hkey : ∃ key, eventKey env g event.id = .ok key)
    (hnew : event.id ∉ L.map (·.id)) {es : List (Event F X)} (hf : Follows g tr es h₀) :
    ∃ tr' db writer', Provides env sdk lib lostCall lostAnswer tr'
        ⟨db, Function.update c.client i (.idle ⟨some writer', none⟩)⟩ ∧
      Tracks env g writer' (L ++ [e]) db ∧ Follows g tr' es h₀ := by
  obtain ⟨writer', db, hrun, ht'⟩ := ht.append sdk i hsha henc hdict hnormal hkey hnew
  obtain ⟨tr₁, h, hr', -, hops⟩ := hr.alone hidle (run_events hrun)
  refine ⟨_, db, writer', hr', ht', hf.later ?_⟩
  intro e he
  rcases List.mem_cons.mp he with rfl | he
  · exact id
  · exact not_truncating (hops e he) nofun

/-- A reader that asks gets the rest of the log. -/
lemma Follows.ask (hsha : CollisionFree env) (henc : EncodesJson env)
    (hr : Provides env sdk lib lostCall lostAnswer tr c) {writer : EventStore}
    {L R : List (LogEvent F)} (ht : Tracks env g writer (L ++ R) c.shared) {reader : EventStore}
    (hidle : c.client i = .idle ⟨some reader, none⟩) (haddress : reader.address = g)
    (hkey : runKey env g = .ok reader.runRecord) (hopen : reader.closed = false)
    (hf : Follows g tr (L.map (LogEvent.toEvent (X := X))) h₀) :
    ∃ tr' db h, Provides env sdk lib lostCall lostAnswer tr' ⟨db, c.client⟩ ∧
      Tracks env g writer (L ++ R) db ∧
      Follows g tr' ((L ++ R).map (LogEvent.toEvent (X := X))) h := by
  have hids : ((L ++ R).map (·.id)).Nodup := by
    rw [← ht.events]
    exact nodup_events ht.consistent.1 g
  obtain ⟨db, hrun, ht'⟩ := ht.iterate sdk i hsha henc reader haddress hkey hopen
    (((L.map (LogEvent.toEvent (X := X))).getLast?).map (·.id)) none
  rw [iterated_rest hids] at hrun
  obtain ⟨tr₁, h, hr', hfinish, hops⟩ := hr.alone hidle (run_events hrun)
  have hclient : Function.update c.client i (.idle ⟨some reader, none⟩) = c.client := by
    rw [← hidle, Function.update_eq_self]
  rw [hclient] at hr'
  refine ⟨_, db, h, hr', ht', ?_⟩
  rw [List.map_append]
  exact hf.next rfl haddress hfinish fun e he => not_truncating (hops e he) nofun

end turns

/-- One client appends two events, and another one asks for new ones after each of them. Its
handle expects the empty log all the time. -/
lemma follows_twice : ∃ (tr : List (ProviderLabel referenceFramework))
    (c : ProviderConfig referenceFramework) (h : Hist),
    Provides (reference Unit) referenceSdk referenceFramework False False tr c ∧
      Follows ("s", "r") tr [referenceEvent "a", referenceEvent "b"] h := by
  have hwriter : (provided twoHandles).2.client 1 = .idle openedHeld := rfl
  have hreader : ∀ store, Function.update (provided twoHandles).2.client 1
      (.idle ⟨some store, none⟩) 0 = .idle ⟨some (referenceStore ("s", "r")), none⟩ :=
    fun _ => Function.update_of_ne (by decide) _ _
  obtain ⟨tr₁, db₁, store₁, hr₁, ht₁, hf₁⟩ := Follows.append reference_collisionFree
    reference_encodesJson reference_encodesDict (provides_provided twoHandles) tracks_twoHandles
    hwriter (normal_referenceEvent "a") ⟨_, rfl⟩ List.not_mem_nil (.nil _)
  obtain ⟨tr₂, db₂, h₂, hr₂, ht₂, hf₂⟩ := Follows.ask (L := []) (i := 0) reference_collisionFree
    reference_encodesJson hr₁ ht₁ (hreader store₁) rfl rfl rfl hf₁
  obtain ⟨tr₃, db₃, store₃, hr₃, ht₃, hf₃⟩ := Follows.append reference_collisionFree
    reference_encodesJson reference_encodesDict hr₂ ht₂ (Function.update_self ..)
    (normal_referenceEvent "b") ⟨_, rfl⟩ (by decide) hf₂
  rw [Function.update_idem] at hr₃
  obtain ⟨tr₄, db₄, h₄, hr₄, -, hf₄⟩ := Follows.ask (i := 0) reference_collisionFree
    reference_encodesJson hr₃ ht₃ (hreader store₃) rfl rfl rfl hf₃
  exact ⟨_, _, h₄, hr₄, hf₄⟩

theorem follows_exactly_once_readerAndWriter :
    ∃ (c : ProviderConfig referenceFramework) (h : Hist) (L : List (LogEvent Unit)),
      [referenceEvent "a", referenceEvent "b"] = L.map LogEvent.toEvent ∧
      L <+: logs c.shared ("s", "r") ∧ (h ≠ [] → Reads (reference Unit) ("s", "r") h L L) := by
  obtain ⟨tr, c, h, hr, hf⟩ := follows_twice
  exact ⟨c, h, follows_exactly_once reference_collisionFree reference_encodesJson
    reference_encodesDict hr hf⟩

end ActiveGraphSurreal
