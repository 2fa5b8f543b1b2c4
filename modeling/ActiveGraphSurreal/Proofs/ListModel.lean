import ActiveGraphSurreal.Library.Traces
import ActiveGraphSurreal.Proofs.Histories
import ActiveGraphSurreal.Proofs.Provider

/-!
# The event store as a list

A handle that nobody disturbs works as a plain list of events with distinct ids. Its calls can
be lost: then the operation raises, and the list, the ledger and the handle stay as they were.
-/

namespace ActiveGraphSurreal

open Library Setting

set_option linter.unusedSectionVars false

variable {F X : Type} [Json.ScalarText F]

/-! ### The list -/

/-- How a plain list of events answers an operation. -/
inductive ListStep (env : Env F X) (g : String × String) (L : List (LogEvent F)) :
    EventOp F X → Except PyErr (EventValue F X) → List (LogEvent F) → Prop
  | append {event e} (hnormal : Normal env event e) (hnew : e.id ∉ L.map (·.id)) :
      ListStep env g L (.append event) (.ok .unit) (L ++ [e])
  | duplicate {event} (hid : event.id ∈ L.map (·.id)) :
      ListStep env g L (.append event) (.error (EventStore.duplicateEvent env event.id g.2)) L
  | truncate {pre e post} (hsplit : L = pre ++ e :: post) :
      ListStep env g L (.truncateAfter e.id) (.ok .unit) (pre ++ [e])
  | absent {id} (hid : id ∉ L.map (·.id)) :
      ListStep env g L (.truncateAfter id) (.error (EventStore.eventNotFound env id g.2)) L
  | iterate (after until_ : Option String) :
      ListStep env g L (.iterEvents after until_) ((iterated env g.2 L after until_).map .events) L
  | get (id : String) :
      ListStep env g L (.getEvent id) (.ok (.event ((L.find? fun e => e.id = id).map LogEvent.toEvent))) L
  | count : ListStep env g L .count (.ok (.number L.length)) L
  | verify :
      ListStep env g L .verifyIntegrity (.ok (.report ⟨L.length, L.length, headOf env g.1 g.2 L⟩)) L

/-- The operations of the list. -/
def EventOp.OnList : EventOp F X → Prop
  | append _ | truncateAfter _ | iterEvents _ _ | getEvent _ | count | verifyIntegrity => True
  | _ => False

/-- The id whose record an operation computes. -/
def EventOp.named : EventOp F X → Option String
  | append event => some event.id
  | truncateAfter id | getEvent id => some id
  | _ => none

/-- Why an operation may raise where the list does not: one of its calls is lost, its payload
cannot be encoded, or its id is too long for a key. -/
inductive Excused (env : Env F X) (sdk : Sdk) (i : Nat) (g : String × String) :
    EventOp F X → Hist → PyErr → Prop
  | lost {op h e rec} (hrec : rec ∈ h)
      (hlost : (rec.answer, rec.after) ≠ (engine sdk).perform i rec.call rec.before) :
      Excused env sdk i g op h e
  | payload {event h e} (he : eventToRecord env event = .error e) :
      Excused env sdk i g (.append event) h e
  | key {op h e id e₀} (hid : op.named = some id) (he : eventKey env g id = .error e₀) :
      Excused env sdk i g op h e

/-- One operation with its calls and its answer. -/
structure Turn (F X : Type) where
  op : EventOp F X
  hist : Hist
  result : Except PyErr (EventValue F X)

/-- The list answers the operation, or the operation is excused and changes nothing. -/
def Answers (env : Env F X) (sdk : Sdk) (i : Nat) (g : String × String) (L : List (LogEvent F))
    (turn : Turn F X) (L' : List (LogEvent F)) : Prop :=
  ListStep env g L turn.op turn.result L' ∨
    ∃ e, turn.result = .error e ∧ Excused env sdk i g turn.op turn.hist e ∧ L' = L

/-- The list answers one operation after the other, from the empty list on. -/
inductive ListRun (env : Env F X) (sdk : Sdk) (i : Nat) (g : String × String) :
    List (Turn F X) → List (LogEvent F) → Prop
  | nil : ListRun env sdk i g [] []
  | snoc {turns L turn L'} (hrun : ListRun env sdk i g turns L)
      (hturn : Answers env sdk i g L turn L') : ListRun env sdk i g (turns ++ [turn]) L'

/-- One operation on a handle. -/
def EventOp.Run (env : Env F X) (sdk : Sdk) (i : Nat) (store : EventStore) (db : Database)
    (turn : Turn F X) (store' : EventStore) (db' : Database) : Prop :=
  (turn.op.code env (some ⟨store, []⟩)).Exec ((engine sdk).serve (faults True False) i) db turn.hist
    (turn.result, some store') db'

/-- One operation after the other on a handle that nobody disturbs. -/
inductive Session (env : Env F X) (sdk : Sdk) (i : Nat) (store : EventStore) (db : Database) :
    List (Turn F X) → EventStore → Database → Prop
  | nil : Session env sdk i store db [] store db
  | snoc {turns store₁ db₁ turn store₂ db₂} (h : Session env sdk i store db turns store₁ db₁)
      (hop : turn.op.OnList) (hrun : EventOp.Run env sdk i store₁ db₁ turn store₂ db₂) :
      Session env sdk i store db (turns ++ [turn]) store₂ db₂

variable {env : Env F X} {sdk : Sdk} {i : Nat} {g : String × String}

/-! ### Alone -/

variable (env i) in
/-- A client that nobody disturbs. Its calls can be lost. -/
def solo : Setting env where
  lostCall := True
  lostAnswer := False
  alone := True
  client := i
  rely a b := b = a
  drift := Same
  allowed _ _ _ := True
  rely_sound := by
    rintro a b rfl
    exact (guarded env).rely_refl i _
  drift_rely := by
    rintro a b rfl
    exact same_refl _
  drift_quiet _ _ h := h
  drift_trans _ _ _ h h' := ⟨h'.tables.trans h.tables, h'.log.trans h.log⟩
  drift_past _ _ := Same.past
  drift_alone _ _ _ h := h

lemma solo_exec {α : Type} {Q : Hist → α → Database → Prop} {p : Prog Call Answer α}
    {s s' : Database} {h : Hist} {a : α} (hp : (solo env i).Wp sdk Q [] p s)
    (he : p.Exec ((engine sdk).serve (faults True False) i) s h a s') : Q h a s' := by
  have hrefl : ∀ s, True → (solo env i).rely s s := fun _ _ => rfl
  have hsafe : Prog.Safe ((solo env i).serve sdk) (solo env i).rely ((solo env i).guar sdk) Q [] p
      s := hp
  have hend := Prog.Safe.exec hrefl (fun _ _ _ => trivial) hsafe trivial he
  rw [List.nil_append] at hend
  exact hend.1

/-- What is known of an open handle between two operations. -/
structure Tracks (env : Env F X) (g : String × String) (store : EventStore) (L : List (LogEvent F))
    (db : Database) : Prop where
  consistent : Consistent env db
  address : store.address = g
  opened : store.closed = false
  sees : store.Sees env L
  present : (db.tables.ledger env g).run ≠ none
  events : db.tables.events g = L

/-- Where one operation ends. -/
structure Turned (env : Env F X) (sdk : Sdk) (i : Nat) (store : EventStore) (L : List (LogEvent F))
    (db : Database) (op : EventOp F X) (h : Hist) (r : Except PyErr (EventValue F X))
    (store' : EventStore) (L' : List (LogEvent F)) (db' : Database) : Prop where
  tracks : Tracks env store.address store' L' db'
  answers : Answers env sdk i store.address L ⟨op, h, r⟩ L'
  raises : ∀ e, r = .error e → store' = store ∧ db'.tables = db.tables

section turn

variable {store : EventStore} {L : List (LogEvent F)} {db db' : Database} {h : Hist}
  {op : EventOp F X}

/-- Nothing has happened to the handle and the tables. -/
lemma Tracks.same (ht : Tracks env g store L db) (hc : Consistent env db')
    (hsame : Same db db') : Tracks env g store L db' := by
  refine { ht with consistent := hc, present := ?_, events := ?_ }
  · rw [hsame.tables]
    exact ht.present
  · rw [hsame.tables]
    exact ht.events

/-- A read that the list answers. -/
lemma Tracks.read (ht : Tracks env store.address store L db) (hc : Consistent env db')
    (hsame : Same db db') {r : Except PyErr (EventValue F X)}
    (hanswers : Answers env sdk i store.address L ⟨op, h, r⟩ L) :
    Turned env sdk i store L db op h r store L db' :=
  ⟨ht.same hc hsame, hanswers, fun _ _ => ⟨rfl, hsame.tables⟩⟩

/-- Where a write ends, when nobody else commits. -/
lemma Tracks.write (ht : Tracks env store.address store L db) {rejects refuses : PyErr → Prop}
    {grows : List (LogEvent F) → Prop} {x : Except PyErr Unit × EventStore}
    (hends : Ends sdk (solo env i) store L rejects refuses grows
      (fun M _ store' => store' = store.observed env M) db h x db')
    (hrejects : ∀ e, rejects e → Answers env sdk i store.address L ⟨op, h, .error e⟩ L)
    (hrefuses : ∀ e, refuses e → Answers env sdk i store.address L ⟨op, h, .error e⟩ L)
    (hgrows : ∀ M, grows M → ListStep env store.address L op (.ok .unit) M) :
    ∃ L', Turned env sdk i store L db op h (x.1.map fun _ => .unit) x.2 L' db' := by
  obtain ⟨hc, hend⟩ := hends
  cases hend with
  | rejected hq he hd => exact ⟨L, ht.read hc hd (hrejects _ he)⟩
  | refused hq he hd₁ hview hd => exact ⟨L, ht.read hc hd (hrefuses _ he)⟩
  | stale hq he hd₁ hview hd =>
    have hsame : Same db _ := hd₁
    rw [hsame.tables] at hview
    exact absurd ht.events hview
  | lost hq hrec hlost hd => exact ⟨L, ht.read hc hd (.inr ⟨_, rfl, .lost hrec hlost.2, rfl⟩)⟩
  | @conflict e s' s₁ s₂ hq hd₁ hd₂ hlog hd =>
    have hsame : Same s₁ s₂ := hd₂
    rw [hsame.log] at hlog
    exact absurd hlog (Nat.lt_irrefl _)
  | unacked hla hd₁ hg htakes hd₂ => exact hla.elim
  | @committed s₁ s' a store' M hd₁ hg htakes hlast hdone =>
    obtain rfl : store' = store.observed env M := hdone
    refine ⟨M, ⟨hc, rfl, ht.opened, ⟨ht.sees.record, rfl, rfl⟩, ?_, ?_⟩, .inl (hgrows M hg), nofun⟩
    · obtain ⟨row, hrow, -⟩ := htakes.move.here.run
      rw [hrow]
      exact Option.some_ne_none row
    · exact events_of_move hc.1 htakes.move

lemma Tracks.opensList (ht : Tracks env g store L db) :
    ∀ s', (solo env i).drift db s' → (s'.tables.ledger env g).run ≠ none := by
  intro s' hd
  have hsame : Same db s' := hd
  rw [hsame.tables]
  exact ht.present

/-- The verdict of a verification whose reads follow each other. -/
lemma verdict_solo (hopen : store.closed = false) (hevents : db.tables.events store.address = L)
    (hlinked : ∀ h₁ h₂ rec rec', h = h₁ ++ rec :: rec' :: h₂ → rec'.before = rec.after)
    {v : Except PyErr (List EventRow × RunRow)} (hv : Verdict sdk (solo env i) store db [] h v) :
    (∃ rec ∈ h, (solo env i).Lost sdk rec ∧ ∃ e, v = .error e) ∨
    ∃ row, v = .ok (chainRows env store.scope store.runId L, row) ∧
      Ledger.HeadOf env store.address L row := by
  cases hv with
  | closed hclosed he =>
    rw [hopen] at hclosed
    cases hclosed
  | lost hlost he => exact .inl ⟨_, by simp, hlost, _, rfl⟩
  | torn hreads hne hopen he =>
    obtain ⟨h₀, s₁, s₂, record, run, rfl, hfirst, hsecond⟩ := hreads
    have hsame : s₂ = s₁ := hlinked h₀ [] _ _ rfl
    rw [← hfirst, ← hsecond, hsame] at hne
    exact absurd rfl hne
  | @agreed h row s₁ M hreads hd hopen hgood hview hhead =>
    have hsame : Same db s₁ := hd
    rw [hsame.tables, hevents] at hview
    subst hview
    exact .inr ⟨row, rfl, hhead⟩

lemma exec_onStore {α : Type} {serve : Server Call Answer Database} {m : Py EventStore α}
    {f : α → EventValue F X} {r : Except PyErr (EventValue F X)} {store' : EventStore}
    (he : (onStore m f store).Exec serve db h (r, some store') db') :
    ∃ r₀, (m store).Exec serve db h (r₀, store') db' ∧ r = r₀.map f := by
  obtain ⟨⟨r₀, store₁⟩, db₁, h₁, h₂, hm, hend, rfl⟩ := Prog.exec_bind_iff.mp he
  obtain ⟨rfl, hx, rfl⟩ := Prog.exec_done_iff.mp hend
  obtain ⟨rfl, hstore⟩ := Prod.mk.inj hx
  obtain rfl := Option.some.inj hstore
  rw [List.append_nil]
  exact ⟨r₀, hm, rfl⟩

/-- A lost call of a read. -/
lemma Tracks.lostRead (ht : Tracks env store.address store L db) (hc : Consistent env db')
    (hsame : Same db db') {rec : Rec} (hrec : rec ∈ h) (hlost : (solo env i).Lost sdk rec)
    {e : PyErr} : Turned env sdk i store L db op h (.error e) store L db' :=
  ht.read hc hsame (.inr ⟨e, rfl, .lost hrec hlost.2, rfl⟩)

/-- Each operation on the handle is one of the list. -/
theorem turned (hsha : CollisionFree env) (henc : EncodesJson env) (hdict : EncodesDict env)
    (ht : Tracks env store.address store L db) (hop : op.OnList)
    {r : Except PyErr (EventValue F X)} {store' : EventStore}
    (hrun : EventOp.Run env sdk i store db ⟨op, h, r⟩ store' db') :
    ∃ L', Turned env sdk i store L db op h r store' L' db' := by
  have hc := ht.consistent
  cases op with
  | append event =>
    obtain ⟨r₀, he, rfl⟩ := exec_onStore hrun
    have hends := solo_exec (i := i) (wp_append (S := solo env i) hsha henc hdict hc ht.sees ht.opensList
      fun _ _ _ _ _ _ _ => trivial) he
    refine ht.write hends ?_ ?_ ?_
    · rintro e (hpayload | ⟨hclosed, -⟩)
      · exact .inr ⟨e, rfl, .payload hpayload, rfl⟩
      · rw [ht.opened] at hclosed
        cases hclosed
    · rintro e (⟨hid, rfl⟩ | ⟨e₀, hkey⟩)
      · exact .inl (.duplicate hid)
      · exact .inr ⟨e, rfl, .key rfl hkey, rfl⟩
    · rintro M ⟨e, hnormal, hnew, rfl⟩
      exact .append hnormal hnew
  | truncateAfter id =>
    obtain ⟨r₀, he, rfl⟩ := exec_onStore hrun
    have hends := solo_exec (i := i) (wp_truncateAfter (S := solo env i) hsha hc ht.sees ht.opensList
      fun _ _ _ _ _ _ _ => trivial) he
    refine ht.write hends ?_ ?_ ?_
    · rintro e ⟨hclosed, -⟩
      rw [ht.opened] at hclosed
      cases hclosed
    · rintro e (⟨hid, rfl⟩ | ⟨e₀, hkey⟩)
      · exact .inl (.absent hid)
      · exact .inr ⟨e, rfl, .key rfl hkey, rfl⟩
    · rintro M ⟨pre, e, post, hsplit, rfl, rfl⟩
      exact .truncate hsplit
  | iterEvents after until_ =>
    obtain ⟨r₀, he, rfl⟩ := exec_onStore hrun
    obtain ⟨hc', hd, hstore, v, hv, hr₀⟩ := solo_exec (wp_iterEvents (S := solo env i) hsha henc hc
      ht.sees.record ht.opensList after until_) he
    obtain rfl : store' = store := hstore
    obtain rfl : r₀ = _ := hr₀
    refine ⟨L, ?_⟩
    rcases verdict_solo ht.opened ht.events (fun _ _ _ _ => he.linked) hv with
      ⟨rec, hrec, hlost, e, rfl⟩ | ⟨row, rfl, -⟩
    · exact ht.lostRead hc' hd hrec hlost
    · simp only [Except.bind, decodeRows_chainRows]
      exact ht.read hc' hd (.inl (.iterate after until_))
  | getEvent id =>
    obtain ⟨r₀, he, rfl⟩ := exec_onStore hrun
    obtain ⟨hc', hd, hstore, hend⟩ := solo_exec (wp_getEvent (S := solo env i) hc id) he
    obtain rfl : store' = store := hstore
    refine ⟨L, ?_⟩
    rcases hend with ⟨hclosed, -⟩ | ⟨e, e₀, rfl, hkey⟩ | ⟨rec, hrec, e, hlost, rfl⟩ | ⟨M, hM, rfl⟩
    · rw [ht.opened] at hclosed
      cases hclosed
    · exact ht.read hc' hd (.inr ⟨e, rfl, .key rfl hkey, rfl⟩)
    · exact ht.lostRead hc' hd hrec hlost
    · rw [hd.tables, ht.events] at hM
      subst hM
      exact ht.read hc' hd (.inl (.get id))
  | count =>
    obtain ⟨r₀, he, rfl⟩ := exec_onStore hrun
    obtain ⟨hc', hd, hstore, hend⟩ := solo_exec (wp_count (S := solo env i) hc) he
    obtain rfl : store' = store := hstore
    refine ⟨L, ?_⟩
    rcases hend with ⟨hclosed, -⟩ | ⟨rec, hrec, e, hlost, rfl⟩ | ⟨M, hM, rfl⟩
    · rw [ht.opened] at hclosed
      cases hclosed
    · exact ht.lostRead hc' hd hrec hlost
    · rw [hd.tables, ht.events] at hM
      subst hM
      exact ht.read hc' hd (.inl .count)
  | verifyIntegrity =>
    obtain ⟨r₀, he, rfl⟩ := exec_onStore hrun
    obtain ⟨hc', hd, hstore, v, hv, hr₀⟩ := solo_exec (wp_verifyIntegrity (S := solo env i) store
      hsha henc hc ht.sees.record ht.opensList) he
    obtain rfl : store' = store := hstore
    obtain rfl : r₀ = _ := hr₀
    refine ⟨L, ?_⟩
    rcases verdict_solo ht.opened ht.events (fun _ _ _ _ => he.linked) hv with
      ⟨rec, hrec, hlost, e, rfl⟩ | ⟨row, rfl, hhead⟩
    · exact ht.lostRead hc' hd hrec hlost
    · simp only [Except.map, length_chainRows, hhead.nextSeq, hhead.headHash]
      exact ht.read hc' hd (.inl .verify)
  | _ => exact hop.elim

end turn

/-! ### Without faults -/

/-- The payload of the operation can be encoded, and its id has a key. -/
structure EventOp.Fits (env : Env F X) (g : String × String) (op : EventOp F X) : Prop where
  payload : ∀ event, op = .append event → ∃ record, eventToRecord env event = .ok record
  key : ∀ id ∈ op.named, ∃ key, eventKey env g id = .ok key

lemma EventOp.Fits.not_excused {op : EventOp F X} (hfits : op.Fits env g) {h : Hist} {e : PyErr}
    (hanswered : ∀ rec ∈ h,
      (rec.answer, rec.after) = (engine sdk).perform i rec.call rec.before) :
    ¬ Excused env sdk i g op h e := by
  intro hexcused
  cases hexcused with
  | lost hrec hlost => exact hlost (hanswered _ hrec)
  | payload he =>
    obtain ⟨record, hrecord⟩ := hfits.payload _ rfl
    rw [hrecord] at he
    cases he
  | key hid he =>
    obtain ⟨key, hkey⟩ := hfits.key _ hid
    rw [hkey] at he
    cases he

lemma EventOp.fits_append {event : Event F X} {e : LogEvent F} (hnormal : Normal env event e)
    (hkey : ∃ key, eventKey env g event.id = .ok key) : (EventOp.append event).Fits env g := by
  refine ⟨?_, ?_⟩
  · intro event' hop
    obtain rfl := EventOp.append.inj hop
    exact ⟨e.record, eventToRecord_ok_iff.mpr ⟨e, hnormal, rfl⟩⟩
  · intro id hid
    obtain rfl := Option.some.inj hid
    exact hkey

variable (sdk i) in
lemma run_onStore {α : Type} (m : Py EventStore α) (f : α → EventValue F X) (store : EventStore)
    (db : Database) : (onStore m f store).run ((engine sdk).perform i) db =
      (((alone sdk i m store db).1.1.map f, some (alone sdk i m store db).1.2),
        (alone sdk i m store db).2) :=
  Prog.run_bind ..

variable (env sdk i) in
/-- An operation of the list keeps its handle. -/
lemma EventOp.OnList.run {op : EventOp F X} (hop : op.OnList) (store : EventStore)
    (db : Database) : ∃ r store' db',
      (op.code env (some ⟨store, []⟩)).run ((engine sdk).perform i) db =
        ((r, some store'), db') := by
  cases op with
  | append | truncateAfter | iterEvents | getEvent | count | verifyIntegrity =>
    exact ⟨_, _, _, run_onStore ..⟩
  | _ => exact hop.elim

lemma EventOp.run_of {op : EventOp F X} {store store' : EventStore} {db db' : Database}
    {r : Except PyErr (EventValue F X)} (hrun : (op.code env (some ⟨store, []⟩)).run
      ((engine sdk).perform i) db = ((r, some store'), db')) :
    EventOp.Run env sdk i store db
      ⟨op, (op.code env (some ⟨store, []⟩)).history ((engine sdk).perform i) db, r⟩ store' db' := by
  have hexec : (op.code env (some ⟨store, []⟩)).Exec ((engine sdk).serve (faults True False) i) db
      ((op.code env (some ⟨store, []⟩)).history ((engine sdk).perform i) db) _ _ := exec_alone _ db
  rw [hrun] at hexec
  exact hexec

variable (sdk i) in
/-- The list answers an operation that runs alone, without faults, and that fits. -/
lemma Tracks.answered (hsha : CollisionFree env) (henc : EncodesJson env) (hdict : EncodesDict env)
    {store : EventStore} {L : List (LogEvent F)} {db : Database} (ht : Tracks env g store L db)
    {op : EventOp F X} (hop : op.OnList) (hfits : op.Fits env g) : ∃ r store' db' L',
      (op.code env (some ⟨store, []⟩)).run ((engine sdk).perform i) db = ((r, some store'), db') ∧
      ListStep env g L op r L' ∧ Tracks env g store' L' db' := by
  obtain rfl := ht.address
  obtain ⟨r, store', db', hrun⟩ := hop.run env sdk i store db
  obtain ⟨L', hturned⟩ := turned hsha henc hdict ht hop (EventOp.run_of hrun)
  refine ⟨r, store', db', L', hrun, ?_, hturned.tracks⟩
  rcases hturned.answers with hstep | ⟨e, -, hexcused, -⟩
  · exact hstep
  · exact absurd hexcused (hfits.not_excused fun _ => Prog.history_answered _ _ _)

variable (sdk i) in
/-- An event with a new id goes to the end of the list. -/
lemma Tracks.append (hsha : CollisionFree env) (henc : EncodesJson env) (hdict : EncodesDict env)
    {store : EventStore} {L : List (LogEvent F)} {db : Database} (ht : Tracks env g store L db)
    {event : Event F X} {e : LogEvent F} (hnormal : Normal env event e)
    (hkey : ∃ key, eventKey env g event.id = .ok key) (hnew : event.id ∉ L.map (·.id)) :
    ∃ store' db', ((EventOp.append event).code env (some ⟨store, []⟩)).run
        ((engine sdk).perform i) db = ((.ok .unit, some store'), db') ∧
      Tracks env g store' (L ++ [e]) db' := by
  have hop : (EventOp.append event).OnList := trivial
  obtain ⟨r, store', db', L', hrun, hstep, ht'⟩ :=
    ht.answered sdk i hsha henc hdict hop (EventOp.fits_append hnormal hkey)
  cases hstep with
  | append hnormal' =>
    obtain rfl := hnormal.unique hnormal'
    exact ⟨store', db', hrun, ht'⟩
  | duplicate hid => exact absurd hid hnew

variable (sdk i) in
/-- Another handle of the run reads the list, whatever head it expects. -/
lemma Tracks.iterate (hsha : CollisionFree env) (henc : EncodesJson env) {store : EventStore}
    {L : List (LogEvent F)} {db : Database} (ht : Tracks env g store L db) (reader : EventStore)
    (haddress : reader.address = g) (hkey : runKey env g = .ok reader.runRecord)
    (hopen : reader.closed = false) (after until_ : Option String) :
    ∃ db', ((EventOp.iterEvents after until_ : EventOp F X).code env (some ⟨reader, []⟩)).run
        ((engine sdk).perform i) db =
          (((iterated env g.2 L after until_).map .events, some reader), db') ∧
      Tracks env g store L db' := by
  subst haddress
  have hexec : (EventStore.iterEvents env after until_ reader).Exec
      ((engine sdk).serve (faults True False) i) db _ _ _ := exec_alone _ db
  obtain ⟨hc, hd, hstore, v, hv, hanswer⟩ := solo_exec (wp_iterEvents (S := solo env i) hsha henc
    ht.consistent hkey ht.opensList after until_) hexec
  have hsame : Same db (alone sdk i (EventStore.iterEvents env after until_) reader db).2 := hd
  have hiterated : (alone sdk i (EventStore.iterEvents env after until_) reader db).1.1 =
      iterated env reader.runId L after until_ := by
    rcases verdict_solo hopen ht.events (fun _ _ _ _ => hexec.linked) hv with
      ⟨rec, hrec, hlost, -⟩ | ⟨row, rfl, -⟩
    · exact absurd (Prog.history_answered _ _ _ hrec) hlost.2
    · simp only [Except.bind, decodeRows_chainRows] at hanswer
      exact hanswer
  refine ⟨(alone sdk i (EventStore.iterEvents env after until_) reader db).2, ?_, ht.same hc hsame⟩
  have hrun := run_onStore sdk i (EventStore.iterEvents env after until_) EventValue.events reader db
  rw [hiterated, show (alone sdk i (EventStore.iterEvents env after until_) reader db).1.2 = reader
    from hstore] at hrun
  exact hrun

/-! ### Whole runs -/

/-- A handle that is opened on an empty run sees the empty list. -/
lemma tracks_new (hsha : CollisionFree env) (henc : EncodesJson env) {db₀ db : Database}
    (hc : Consistent env db₀) {scope runId now : String}
    (hempty : db₀.tables.events (scope, runId) = ([] : List (LogEvent F))) {h : Hist}
    {store : EventStore} (hnew : (EventStore.new env runId scope now ()).Exec
      ((engine sdk).serve (faults True False) i) db₀ h (.ok store, ()) db) :
    Tracks env (scope, runId) store [] db := by
  obtain ⟨hc', -, hopening⟩ := solo_exec (wp_new (S := solo env i) hsha henc hc runId scope now
    (fun _ _ _ _ => trivial) (fun _ _ _ _ _ => trivial) ()) hnew
  cases hopening with
  | @opened store s' L hreads haddress hopen hsees hpresent hkeeps hview =>
    have hevents : db.tables.events (scope, runId) = ([] : List (LogEvent F)) :=
      (hkeeps.events trivial _).trans hempty
    obtain rfl : L = [] := (hview trivial).symm.trans hevents
    exact ⟨hc', haddress, hopen, hsees, hpresent, hevents⟩

/-- A session keeps track of the list. -/
lemma tracks_session (hsha : CollisionFree env) (henc : EncodesJson env) (hdict : EncodesDict env)
    {store₀ store : EventStore} {db₀ db : Database} (h₀ : Tracks env g store₀ [] db₀)
    {turns : List (Turn F X)} (hsession : Session env sdk i store₀ db₀ turns store db) :
    ∃ L, ListRun env sdk i g turns L ∧ Tracks env g store L db := by
  induction hsession with
  | nil => exact ⟨[], .nil, h₀⟩
  | @snoc turns store₁ db₁ turn store₂ db₂ hsession hop hrun ih =>
    obtain ⟨L, hlist, ht⟩ := ih
    obtain rfl := ht.address
    obtain ⟨L', hturned⟩ := turned hsha henc hdict ht hop hrun
    exact ⟨L', hlist.snoc hturned.answers, hturned.tracks⟩

/-- A handle opened on an empty run that nobody else writes to works as a list of events with
distinct ids. What raises leaves the handle and the tables as they were. -/
theorem behaves_as_list (hsha : CollisionFree env) (henc : EncodesJson env)
    (hdict : EncodesDict env) {db₀ db₁ db : Database} (hc : Consistent env db₀)
    {scope runId now : String}
    (hempty : db₀.tables.events (scope, runId) = ([] : List (LogEvent F))) {h₀ : Hist}
    {store₀ store : EventStore} (hnew : (EventStore.new env runId scope now ()).Exec
      ((engine sdk).serve (faults True False) i) db₀ h₀ (.ok store₀, ()) db₁)
    {turns : List (Turn F X)} (hsession : Session env sdk i store₀ db₁ turns store db) :
    ∃ L, ListRun env sdk i (scope, runId) turns L ∧ (L.map (·.id)).Nodup ∧
      db.tables.events (scope, runId) = L ∧ store.Sees env L ∧
      ∀ (turn : Turn F X) (store' : EventStore) (db' : Database), turn.op.OnList →
        EventOp.Run env sdk i store db turn store' db' → ∀ e, turn.result = .error e →
        store' = store ∧ db'.tables = db.tables := by
  obtain ⟨L, hlist, ht⟩ := tracks_session hsha henc hdict
    (tracks_new hsha henc hc hempty hnew) hsession
  have hids := nodup_events ht.consistent.1 (scope, runId)
  rw [ht.events] at hids
  refine ⟨L, hlist, hids, ht.events, ht.sees, ?_⟩
  intro turn store' db' hop hrun
  have haddress := ht.address
  rw [← haddress] at ht
  obtain ⟨L', hturned⟩ := turned hsha henc hdict ht hop hrun
  exact hturned.raises

/-- The database after the run `"r"` has been opened on it. -/
def openedDatabase : Database :=
  ((EventStore.new (reference Unit) "r" "s" "now" ()).run ((engine referenceSdk).perform 0)
    freshDatabase).2

lemma opened_referenceStore : ((EventStore.new (reference Unit) "r" "s" "now" ()).run
    ((engine referenceSdk).perform 0) freshDatabase).1 = (.ok (referenceStore ("s", "r")), ()) := by
  decide +kernel

lemma exec_openedDatabase : (EventStore.new (reference Unit) "r" "s" "now" ()).Exec
    ((engine referenceSdk).serve (faults True False) 0) freshDatabase
    ((EventStore.new (reference Unit) "r" "s" "now" ()).history
      ((engine referenceSdk).perform 0) freshDatabase)
    (.ok (referenceStore ("s", "r")), ()) openedDatabase := by
  rw [← opened_referenceStore, openedDatabase]
  exact exec_alone _ _

lemma consistent_fresh : Consistent (reference Unit) freshDatabase := ⟨good_empty, nofun⟩

lemma events_fresh : freshDatabase.tables.events ("s", "r") = ([] : List (LogEvent Unit)) :=
  events_of_absent good_empty.keyed
    (ledger_empty _ : Ledger.Absent (Tables.empty.ledger (reference Unit) _))

lemma tracks_opened : Tracks (reference Unit) ("s", "r") (referenceStore ("s", "r")) []
    openedDatabase :=
  tracks_new reference_collisionFree reference_encodesJson consistent_fresh events_fresh
    exec_openedDatabase

/-- Two events are appended, the second one is refused when it comes again, and is cut off. -/
lemma session_edited : ∃ (turns : List (Turn Unit Empty)) (store : EventStore) (db : Database),
    turns.map (·.op) = [.append (referenceEvent "a"), .append (referenceEvent "b"),
      .append (referenceEvent "b"), .truncateAfter "a"] ∧
    turns.map (·.result) = [.ok .unit, .ok .unit,
      .error (EventStore.duplicateEvent (reference Unit) "b" "r"), .ok .unit] ∧
    Session (reference Unit) referenceSdk 0 (referenceStore ("s", "r")) openedDatabase turns store
      db := by
  obtain ⟨store₁, db₁, hrun₁, h₁⟩ := tracks_opened.append referenceSdk 0 reference_collisionFree
    reference_encodesJson reference_encodesDict (normal_referenceEvent "a") ⟨_, rfl⟩
    List.not_mem_nil
  obtain ⟨store₂, db₂, hrun₂, h₂⟩ := h₁.append referenceSdk 0 reference_collisionFree
    reference_encodesJson reference_encodesDict (normal_referenceEvent "b") ⟨_, rfl⟩ (by decide)
  have happend : ∀ id, (EventOp.append (referenceEvent id)).OnList := fun _ => trivial
  obtain ⟨r₃, store₃, db₃, L₃, hrun₃, hstep₃, h₃⟩ := h₂.answered referenceSdk 0
    reference_collisionFree reference_encodesJson reference_encodesDict (happend "b")
    (EventOp.fits_append (normal_referenceEvent "b") ⟨_, rfl⟩)
  obtain ⟨rfl, rfl⟩ : r₃ = .error (EventStore.duplicateEvent (reference Unit) "b" "r") ∧
      L₃ = [referenceLogged "a", referenceLogged "b"] := by
    cases hstep₃ with
    | append hnormal hnew =>
      obtain rfl := hnormal.unique (normal_referenceEvent "b")
      exact absurd (by decide) hnew
    | duplicate => exact ⟨rfl, rfl⟩
  have htruncate : (EventOp.truncateAfter "a" : EventOp Unit Empty).OnList := trivial
  have hfits : (EventOp.truncateAfter "a" : EventOp Unit Empty).Fits (reference Unit) ("s", "r") := by
    refine ⟨nofun, ?_⟩
    intro id hid
    obtain rfl := Option.some.inj hid
    exact ⟨_, rfl⟩
  obtain ⟨r₄, store₄, db₄, L₄, hrun₄, hstep₄, -⟩ := h₃.answered referenceSdk 0
    reference_collisionFree reference_encodesJson reference_encodesDict htruncate hfits
  obtain rfl : r₄ = .ok .unit := by
    generalize hop : (EventOp.truncateAfter "a" : EventOp Unit Empty) = op at hstep₄
    cases hstep₄ with
    | truncate hsplit => rfl
    | absent hid =>
      obtain rfl := EventOp.truncateAfter.inj hop
      exact absurd (by decide) hid
    | _ => cases hop
  have hfirst := Session.nil.snoc (happend "a") (EventOp.run_of hrun₁)
  have hsecond := hfirst.snoc (happend "b") (EventOp.run_of hrun₂)
  have hthird := hsecond.snoc (happend "b") (EventOp.run_of hrun₃)
  exact ⟨_, store₄, db₄, rfl, rfl, hthird.snoc htruncate (EventOp.run_of hrun₄)⟩

theorem behaves_as_list_edited :
    ∃ (turns : List (Turn Unit Empty)) (store : EventStore) (db : Database)
      (L : List (LogEvent Unit)),
      turns.map (·.op) = [.append (referenceEvent "a"), .append (referenceEvent "b"),
        .append (referenceEvent "b"), .truncateAfter "a"] ∧
      turns.map (·.result) = [.ok .unit, .ok .unit,
        .error (EventStore.duplicateEvent (reference Unit) "b" "r"), .ok .unit] ∧
      ListRun (reference Unit) referenceSdk 0 ("s", "r") turns L ∧ (L.map (·.id)).Nodup ∧
      db.tables.events ("s", "r") = L ∧ store.Sees (reference Unit) L ∧
      ∀ (turn : Turn Unit Empty) (store' : EventStore) (db' : Database), turn.op.OnList →
        EventOp.Run (reference Unit) referenceSdk 0 store db turn store' db' →
        ∀ e, turn.result = .error e → store' = store ∧ db'.tables = db.tables := by
  obtain ⟨turns, store, db, hops, hresults, hsession⟩ := session_edited
  obtain ⟨L, hlist⟩ := behaves_as_list reference_collisionFree reference_encodesJson
    reference_encodesDict consistent_fresh events_fresh exec_openedDatabase hsession
  exact ⟨turns, store, db, L, hops, hresults, hlist⟩

end ActiveGraphSurreal
