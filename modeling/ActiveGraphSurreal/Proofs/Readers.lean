import ActiveGraphSurreal.Proofs.Writers

/-!
# The operations that read a run

Verification reads the rows and the run row in two queries. What it says depends on the two
lists of events that the run had then and on nothing else.
-/

namespace ActiveGraphSurreal

open Library Setting

set_option linter.unusedSectionVars false

variable {F X : Type} [Json.ScalarText F] {env : Env F X} {sdk : Sdk} {S : Setting env}

lemma eventRows_eq {t : Tables} (hgood : Good env t) (g : String × String) :
    t.eventRows g.1 g.2 = chainRows env g.1 g.2 (t.events g) := by
  rcases hgood.ledger g with habs | ⟨L, hL⟩
  · rw [eventRows_of_absent hgood.keyed habs, events_of_absent hgood.keyed habs]
    rfl
  · rw [eventRows_of_holds hgood.keyed hL, events_of_holds hgood.keyed hL]

lemma nodup_events {t : Tables} (hgood : Good env t) (g : String × String) :
    ((t.events g : List (LogEvent F)).map (·.id)).Nodup := by
  rcases hgood.ledger g with habs | ⟨L, hL⟩
  · rw [events_of_absent hgood.keyed habs]
    exact List.nodup_nil
  · rw [events_of_holds hgood.keyed hL]
    exact hL.ids

/-- The last two calls have read the rows of `L₁` and the run row of `L₂`. -/
def Reads (env : Env F X) (g : String × String) (h : Hist) (L₁ L₂ : List (LogEvent F)) : Prop :=
  ∃ h₀ s₁ s₂ record run, h = h₀ ++
    [⟨.query (.selectEvents g.1 g.2), s₁, .ok (chainRows env g.1 g.2 L₁), s₁⟩,
      ⟨.query (.selectRun record), s₂, .ok run, s₂⟩] ∧
    s₁.tables.events g = L₁ ∧ s₂.tables.events g = L₂

/-- The rows that a call has read. -/
def rowsRead : Rec → Option (List EventRow)
  | ⟨.query (.selectEvents _ _), _, .ok rows, _⟩ => some rows
  | _ => none

/-- The list of events that a handle has read last. -/
def lastRead (F : Type) [Json.ScalarText F] (h : Hist) : List (LogEvent F) :=
  decodeRows ((h.reverse.findSome? rowsRead).getD [])

lemma Reads.lastRead {g : String × String} {h : Hist} {L₁ L₂ : List (LogEvent F)}
    (hr : Reads env g h L₁ L₂) : lastRead F h = L₁ := by
  obtain ⟨h₀, s₁, s₂, record, run, rfl, -, -⟩ := hr
  unfold ActiveGraphSurreal.lastRead
  rw [List.reverse_append]
  simp [List.findSome?, rowsRead]

/-- One history has one last pair of reads. -/
lemma reads_agree {g : String × String} {h : Hist} {L₁ L₂ L : List (LogEvent F)}
    (hr : Reads env g h L₁ L₂) (hr' : Reads env g h L L) : L₁ = L₂ := by
  obtain ⟨h₀, s₁, s₂, record, run, heq, rfl, rfl⟩ := hr
  obtain ⟨h₀', t₁, t₂, record', run', heq', hL, hL'⟩ := hr'
  obtain ⟨-, hlast⟩ := List.append_inj' (heq.symm.trans heq') rfl
  simp only [List.cons.injEq, CallRec.mk.injEq, and_true] at hlast
  obtain ⟨⟨-, rfl, -⟩, -, rfl, -⟩ := hlast
  rw [hL, hL']

/-- The rows and the run row were read from states with different lists. -/
def Torn (env : Env F X) (g : String × String) (h : Hist) : Prop :=
  ∃ L₁ L₂ : List (LogEvent F), Reads env g h L₁ L₂ ∧ L₁ ≠ L₂

lemma not_torn_of_calls {g : String × String} {h : Hist}
    (hh : ∀ rec ∈ h, ∀ scope runId, rec.call ≠ .query (.selectEvents scope runId)) :
    ¬ Torn env g h := by
  rintro ⟨L₁, L₂, ⟨h₀, s₁, s₂, record, run, rfl, -⟩, -⟩
  exact hh _ (List.mem_append_right _ (List.mem_cons_self ..)) g.1 g.2 rfl

lemma not_torn_of_error {g : String × String} {h : Hist} {st : Stmt} {s₁ s₂ : Database} {e : PyErr} :
    ¬ Torn env g (h ++ [⟨.query st, s₁, .error e, s₂⟩]) := by
  rintro ⟨L₁, L₂, ⟨h₀, t₁, t₂, record, run, heq, -⟩, -⟩
  have hlast := congrArg List.getLast? heq
  simp only [List.getLast?_append, List.getLast?_cons_cons, List.getLast?_singleton,
    Option.some_or, Option.some.injEq, CallRec.mk.injEq, DbCall.query.injEq] at hlast
  obtain ⟨rfl, -, hanswer, -⟩ := hlast
  cases hanswer

section verification

variable {h : Hist} {s : Database} {store : EventStore}

/-- The ways a verification can end. -/
inductive Verdict (sdk : Sdk) (S : Setting env) (store : EventStore) (s : Database) (h₀ : Hist) :
    Hist → Except PyErr (List EventRow × RunRow) → Prop
  | closed {e} (hclosed : store.closed = true) (he : e.cls = .closedStoreError) :
      Verdict sdk S store s h₀ h₀ (.error e)
  | lost {h e st s₁ s₂} (hlost : S.Lost sdk ⟨.query st, s₁, .error e, s₂⟩) (he : e.cls.IsSdk) :
      Verdict sdk S store s h₀ (h ++ [⟨.query st, s₁, .error e, s₂⟩]) (.error e)
  | torn {h e L₁ L₂} (hreads : Reads env store.address h L₁ L₂) (hne : L₁ ≠ L₂)
      (hopen : store.closed = false) (he : e.cls = .ledgerIntegrityError) :
      Verdict sdk S store s h₀ h (.error e)
  | agreed {h row s₁ L} (hreads : Reads env store.address h L L) (hd : S.drift s s₁)
      (hopen : store.closed = false) (hgood : Good env s₁.tables)
      (hview : s₁.tables.events store.address = L)
      (hhead : Ledger.HeadOf env store.address L row) :
      Verdict sdk S store s h₀ h (.ok (chainRows env store.scope store.runId L, row))

theorem wp_verifiedRowsAndRun (hsha : CollisionFree env) (henc : EncodesJson env)
    (hc : Consistent env s) (hkey : runKey env store.address = .ok store.runRecord)
    (hpresent : ∀ s', S.drift s s' → (s'.tables.ledger env store.address).run ≠ none) :
    S.Wp sdk (fun h' x s' => Consistent env s' ∧ S.drift s s' ∧ x.2 = store ∧
      Verdict sdk S store s h h' x.1) h (EventStore.verifiedRowsAndRun env store) s := by
  unfold EventStore.verifiedRowsAndRun
  rw [wp_bind, wp_get, wp_andThen_ok]
  apply wp_ensureOpen
  · intro e hclosed he
    exact ⟨hc, S.drift_quiet _ _ (same_refl _), rfl, .closed hclosed he⟩
  · intro hopen
    rw [wp_bind]
    apply wp_read
    · intro t r ws h
      cases h
      rfl
    · exact hc
    · intro s₁ r hrely₁ hc₁ hr
      have hd₁ := S.drift_rely _ _ hrely₁
      rcases hr with rfl | ⟨hlost, e, he, rfl⟩
      · have hrows : (s₁.tables.eventRows store.scope store.runId) =
            chainRows env store.scope store.runId (s₁.tables.events store.address) :=
          eventRows_eq hc₁.1 store.address
        simp only [Stmt.exec, Except.map, wp_done, wp_andThen_ok, hrows]
        rw [wp_bind]
        apply wp_readRunRow hc₁ hkey
        · intro s₂ hrely₂ hc₂
          have hd₂ := S.drift_trans _ _ _ hd₁ (S.drift_rely _ _ hrely₂)
          obtain ⟨row, hrow⟩ := Option.ne_none_iff_exists'.mp (hpresent s₂ hd₂)
          have hhead := (hc₂.1.holds hrow).2
          rw [hrow, wp_andThen_ok, wp_lift, List.append_assoc]
          refine ⟨hc₂, hd₂, rfl, ?_⟩
          have hreads : Reads env store.address (h ++
              ([⟨.query (.selectEvents store.scope store.runId), s₁,
                .ok (chainRows env store.scope store.runId (s₁.tables.events store.address)), s₁⟩] ++
              [⟨.query (.selectRun store.runRecord), s₂, .ok (some row), s₂⟩]))
              (s₁.tables.events store.address) (s₂.tables.events store.address) :=
            ⟨h, s₁, s₂, store.runRecord, some row, rfl, rfl, rfl⟩
          rcases verify_chainRows hsha henc (s := store.scope) (r := store.runId)
            (L := s₁.tables.events store.address) hhead.nextSeq hhead.headHash with ⟨heq, hok⟩ | ⟨hne, text, herror⟩
          · rw [hok]
            rw [← heq] at hreads hhead
            exact .agreed hreads hd₁ hopen hc₁.1 rfl hhead
          · rw [herror]
            exact .torn hreads hne hopen rfl
        · intro s₂ e hrely₂ hc₂ he hlost
          rw [wp_andThen_error]
          exact ⟨hc₂, S.drift_trans _ _ _ hd₁ (S.drift_rely _ _ hrely₂), rfl,
            .lost hlost he⟩
      · rw [wp_done, wp_andThen_error]
        exact ⟨hc₁, hd₁, rfl, .lost hlost he⟩

variable (store) in
theorem wp_verifyIntegrity (hsha : CollisionFree env) (henc : EncodesJson env)
    (hc : Consistent env s) (hkey : runKey env store.address = .ok store.runRecord)
    (hpresent : ∀ s', S.drift s s' → (s'.tables.ledger env store.address).run ≠ none) :
    S.Wp sdk (fun h' x s' => Consistent env s' ∧ S.drift s s' ∧ x.2 = store ∧
      ∃ v, Verdict sdk S store s h h' v ∧ x.1 = v.map fun p =>
        ⟨p.1.length, p.2.nextSeq, p.2.headHash⟩) h (EventStore.verifyIntegrity env store) s := by
  unfold EventStore.verifyIntegrity
  rw [wp_bind]
  apply wp_mono (wp_verifiedRowsAndRun hsha henc hc hkey hpresent)
  rintro h' ⟨v, store'⟩ s' ⟨hc', hd, hstore, hv⟩
  obtain rfl : store' = store := hstore
  cases v with
  | error e =>
    rw [wp_andThen_error]
    exact ⟨hc', hd, rfl, _, hv, rfl⟩
  | ok p =>
    rw [wp_andThen_ok, wp_pure]
    exact ⟨hc', hd, rfl, _, hv, rfl⟩

end verification

/-! ### Boundaries -/

/-- The number of entries up to and with the one of an id. -/
def upTo (L : List (LogEvent F)) (id : String) : Option Nat :=
  (L.findIdx? fun e => e.id = id).map (· + 1)

lemma upTo_split {pre post : List (LogEvent F)} {e : LogEvent F}
    (hids : ((pre ++ e :: post).map (·.id)).Nodup) :
    upTo (pre ++ e :: post) e.id = some (pre.length + 1) := by
  have hpre : pre.findIdx? (fun f => f.id = e.id) = none := by
    rw [List.findIdx?_eq_none_iff]
    intro f hf
    rw [List.map_append, List.nodup_append] at hids
    simpa using hids.2.2 f.id (List.mem_map_of_mem hf) e.id (by simp)
  unfold upTo
  rw [List.findIdx?_append, hpre]
  simp [List.findIdx?_cons]

lemma upTo_eq_none {L : List (LogEvent F)} {id : String} : upTo L id = none ↔ id ∉ L.map (·.id) := by
  simp [upTo, List.findIdx?_eq_none_iff]

/-- The number of entries up to and with a boundary, or the id that is absent. -/
def position (L : List (LogEvent F)) : Option String → Except String (Option Nat)
  | none => .ok none
  | some id => (upTo L id).elim (.error id) fun n => .ok (some n)

/-- The entries strictly after `after` and up to and with `until_`. -/
def entries (L : List (LogEvent F)) (after until_ : Option String) :
    Except String (List (LogEvent F)) := do
  let start ← position L after
  let stop ← position L until_
  return (L.take (stop.getD L.length)).drop (start.getD 0)

section boundaries

variable {s r : String} {L : List (LogEvent F)}

/-- The boundary of an id is the position of its entry. -/
lemma boundarySeq_chainRows (hids : (L.map (·.id)).Nodup) (runId id : String) :
    EventStore.boundarySeq env (chainRows env s r L) runId id =
      (upTo L id).elim (.error (EventStore.eventNotFound env id runId))
        fun n => .ok ((n : Int) - 1) := by
  unfold EventStore.boundarySeq
  cases hfind : (chainRows env s r L).reverse.find? (fun row => row.eventId = id) with
  | none =>
    have hnone : upTo L id = none := by
      rw [upTo_eq_none, ← eventIds_chainRows env s r, List.mem_map]
      rintro ⟨row, hrow, hid⟩
      rw [List.find?_eq_none] at hfind
      exact hfind row (List.mem_reverse.mpr hrow) (by simpa using hid)
    rw [hnone]
    rfl
  | some row =>
    have hid : row.eventId = id := by simpa using List.find?_some hfind
    have hmem : row ∈ chainRows env s r L := List.mem_reverse.mp (List.mem_of_find?_eq_some hfind)
    obtain ⟨pre, e, post, rfl, rfl⟩ := mem_chainRows_seq hmem
    obtain rfl : e.id = id := hid
    rw [upTo_split hids]
    simp [EventStore.eventRow]

/-- The rows at the positions from `a` on and below `b`. -/
def segment (a b : Nat) (rows : List EventRow) : List EventRow :=
  rows.filter fun row => decide ((a : Int) ≤ row.seq) && decide (row.seq < (b : Int))

variable (env s r) in
lemma segment_rowsFrom (n a b : Nat) (prev : Option String) (es : List (LogEvent F)) :
    segment (n + a) (n + b) (rowsFrom env s r n prev es) =
      ((rowsFrom env s r n prev es).take b).drop a := by
  induction es generalizing n a b prev with
  | nil => simp [rowsFrom, segment]
  | cons e es ih =>
    have hseq : (EventStore.eventRow s r e.record (n : Int) prev (e.link env s r n prev)).seq = n :=
      rfl
    unfold segment at ih ⊢
    cases b with
    | zero =>
      rw [List.take_zero, List.drop_nil, List.filter_eq_nil_iff]
      intro row hrow
      obtain ⟨-, -, hn, -⟩ := mem_rowsFrom hrow
      simp only [Bool.and_eq_true, decide_eq_true_eq]
      omega
    | succ b =>
      rw [rowsFrom, List.take_succ_cons, List.filter_cons, hseq]
      cases a with
      | zero =>
        have hfirst : (decide (((n + 0 : Nat) : Int) ≤ n) &&
            decide ((n : Int) < (n + (b + 1) : Nat))) = true := by
          simp only [Bool.and_eq_true, decide_eq_true_eq]
          omega
        have hrest := ih (n + 1) 0 b (some (e.link env s r n prev))
        rw [List.drop_zero] at hrest
        rw [if_pos hfirst, List.drop_zero, List.cons.injEq, ← hrest]
        refine ⟨rfl, ?_⟩
        apply List.filter_congr
        intro row hrow
        obtain ⟨-, -, hn, -⟩ := mem_rowsFrom hrow
        have hlow : (((n + 0 : Nat) : Int) ≤ row.seq) ↔ (((n + 1 + 0 : Nat) : Int) ≤ row.seq) := by
          omega
        simp only [hlow, show n + 1 + b = n + (b + 1) by omega]
      | succ a =>
        have hfirst : ¬ (decide (((n + (a + 1) : Nat) : Int) ≤ n) &&
            decide ((n : Int) < (n + (b + 1) : Nat))) = true := by
          simp only [Bool.and_eq_true, decide_eq_true_eq]
          omega
        have hrest := ih (n + 1) a b (some (e.link env s r n prev))
        rw [if_neg hfirst, List.drop_succ_cons, ← hrest]
        simp only [show n + 1 + a = n + (a + 1) by omega, show n + 1 + b = n + (b + 1) by omega]

lemma between_chainRows (a b : Option Nat) :
    EventStore.between (chainRows env s r L) (a.map fun n => (n : Int) - 1)
      (b.map fun n => (n : Int) - 1) =
    ((chainRows env s r L).take (b.getD L.length)).drop (a.getD 0) := by
  have hsegment := segment_rowsFrom env s r 0 (a.getD 0)
    (b.getD L.length) none L
  unfold chainRows
  rw [← hsegment, Nat.zero_add, Nat.zero_add]
  unfold EventStore.between segment
  apply List.filter_congr
  intro row hrow
  obtain ⟨-, -, hn, hlt, -⟩ := mem_rowsFrom hrow
  have hlow : ((a.map fun n => (n : Int) - 1).all (· < row.seq)) =
      decide (((a.getD 0 : Nat) : Int) ≤ row.seq) := by
    cases a with
    | none => simpa using hn
    | some a =>
      change decide ((a : Int) - 1 < row.seq) = decide ((a : Int) ≤ row.seq)
      rw [decide_eq_decide]
      omega
  have hhigh : ((b.map fun n => (n : Int) - 1).all (row.seq ≤ ·)) =
      decide (row.seq < ((b.getD L.length : Nat) : Int)) := by
    cases b with
    | none => simpa using hlt
    | some b =>
      change decide (row.seq ≤ (b : Int) - 1) = decide (row.seq < (b : Int))
      rw [decide_eq_decide]
      omega
  rw [hlow, hhigh]

/-- The rows of a chain decode one by one. -/
lemma decode_rowsFrom (n : Nat) (prev : Option String) (es : List (LogEvent F)) :
    List.Forall₂ (fun row e => recordToEvent env row.toEventRecord = .ok (e.toEvent : Event F X))
      (rowsFrom env s r n prev es) es := by
  induction es generalizing n prev with
  | nil => exact .nil
  | cons e es ih => exact .cons (recordToEvent_record e) (ih _ _)

lemma decode_chainRows (es : List (LogEvent F)) :
    List.Forall₂ (fun row e => recordToEvent env row.toEventRecord = .ok (e.toEvent : Event F X))
      (chainRows env s r es) es := decode_rowsFrom 0 none es

lemma mapM_decode {rows : List EventRow} {es : List (LogEvent F)}
    (h : List.Forall₂ (fun row e => recordToEvent env row.toEventRecord =
      .ok (e.toEvent : Event F X)) rows es) :
    (rows.mapM fun row => recordToEvent env row.toEventRecord) = .ok (es.map LogEvent.toEvent) := by
  induction h with
  | nil => rfl
  | cons hrow hrows ih =>
    rw [List.mapM_cons, hrow, List.map_cons]
    simp only [bind, Except.bind, ih]
    rfl

end boundaries

section queries

variable {h : Hist} {s : Database} {store : EventStore}

lemma boundary_chainRows {L : List (LogEvent F)} (hids : (L.map (·.id)).Nodup)
    (id : Option String) :
    EventStore.boundary env (chainRows env store.scope store.runId L) store.runId id =
      ((position L id).mapError fun id => EventStore.eventNotFound env id store.runId).map
        fun n => n.map fun n => (n : Int) - 1 := by
  cases id with
  | none => rfl
  | some id =>
    simp only [EventStore.boundary, boundarySeq_chainRows hids, position]
    cases upTo L id with
    | none => rfl
    | some n => rfl

/-- The entries that an iteration over verified rows returns. -/
def iterated (env : Env F X) (runId : String) (L : List (LogEvent F))
    (after until_ : Option String) : Except PyErr (List (Event F X)) :=
  ((entries L after until_).mapError fun id => EventStore.eventNotFound env id runId).map
    fun es => es.map LogEvent.toEvent

lemma iterated_eq {L : List (LogEvent F)} (hids : (L.map (·.id)).Nodup)
    (after until_ : Option String) :
    (do
      let afterSeq ← EventStore.boundary env (chainRows env store.scope store.runId L)
        store.runId after
      let untilSeq ← EventStore.boundary env (chainRows env store.scope store.runId L)
        store.runId until_
      (EventStore.between (chainRows env store.scope store.runId L) afterSeq untilSeq).mapM
        fun row => recordToEvent env row.toEventRecord : Except PyErr (List (Event F X))) =
    iterated env store.runId L after until_ := by
  have hdecode : ∀ a b : Option Nat,
      (EventStore.between (chainRows env store.scope store.runId L) (a.map fun n => (n : Int) - 1)
        (b.map fun n => (n : Int) - 1)).mapM (fun row => recordToEvent env row.toEventRecord) =
      .ok (((L.take (b.getD L.length)).drop (a.getD 0)).map (LogEvent.toEvent (X := X))) := by
    intro a b
    rw [between_chainRows]
    exact mapM_decode (List.forall₂_drop _ (List.forall₂_take _ (decode_chainRows L)))
  rw [boundary_chainRows hids, boundary_chainRows hids]
  unfold iterated entries
  cases position L after with
  | error id => rfl
  | ok a =>
    cases position L until_ with
    | error id => rfl
    | ok b => exact hdecode a b

theorem wp_iterEvents (hsha : CollisionFree env) (henc : EncodesJson env)
    (hc : Consistent env s) (hkey : runKey env store.address = .ok store.runRecord)
    (hpresent : ∀ s', S.drift s s' → (s'.tables.ledger env store.address).run ≠ none)
    (after until_ : Option String) :
    S.Wp sdk (fun h' x s' => Consistent env s' ∧ S.drift s s' ∧ x.2 = store ∧
      ∃ v, Verdict sdk S store s h h' v ∧ x.1 = v.bind fun p =>
        iterated env store.runId (decodeRows p.1) after until_) h
      (EventStore.iterEvents env after until_ store) s := by
  unfold EventStore.iterEvents
  rw [wp_bind, wp_get, wp_andThen_ok, wp_bind]
  apply wp_mono (wp_verifiedRowsAndRun hsha henc hc hkey hpresent)
  rintro h' ⟨v, store'⟩ s' ⟨hc', hd, hstore, hv⟩
  obtain rfl : store' = store := hstore
  cases v with
  | error e =>
    rw [wp_andThen_error]
    exact ⟨hc', hd, rfl, _, hv, rfl⟩
  | ok p =>
    rw [wp_andThen_ok, wp_lift]
    refine ⟨hc', hd, rfl, _, hv, ?_⟩
    cases hv with
    | agreed hreads hd₁ hopen hgood hview hhead =>
      have hids := nodup_events hgood store'.address
      rw [hview] at hids
      simp only [Except.bind, decodeRows_chainRows]
      exact iterated_eq hids after until_

/-- The row under the key of an id is that of the entry with the id. -/
lemma find_event {t : Tables} (hgood : Good env t) (g : String × String) (id : String) :
    ((t.ledger env g).event id = none ∧
      (t.events g : List (LogEvent F)).find? (fun e => e.id = id) = none) ∨
    ∃ row e, (t.ledger env g).event id = some row ∧ row.toEventRecord = e.record ∧
      row.scope = g.1 ∧ row.runId = g.2 ∧
      (t.events g : List (LogEvent F)).find? (fun e => e.id = id) = some e := by
  rcases hgood.ledger g with habs | ⟨L, hL⟩
  · rw [events_of_absent hgood.keyed habs]
    exact .inl ⟨habs.2 id, rfl⟩
  · rw [events_of_holds hgood.keyed hL]
    cases hevent : (t.ledger env g).event id with
    | none =>
      refine .inl ⟨rfl, ?_⟩
      rw [List.find?_eq_none]
      intro e he
      have hsome := (existing_iff hL e.id).mpr (List.mem_map_of_mem he)
      rw [decide_eq_true_eq]
      rintro rfl
      rw [hevent] at hsome
      cases hsome
    | some row =>
      obtain ⟨hmem, hid⟩ := (hL.event id row).mp hevent
      obtain ⟨pre, e, post, rfl, rfl⟩ := mem_chainRows_seq hmem
      obtain rfl : e.id = id := hid
      refine .inr ⟨_, e, rfl, rfl, rfl, rfl, ?_⟩
      have hids := hL.ids
      rw [List.map_append, List.nodup_append] at hids
      have hpre : pre.find? (fun f => f.id = e.id) = none := by
        rw [List.find?_eq_none]
        intro f hf
        rw [decide_eq_true_eq]
        exact hids.2.2 f.id (List.mem_map_of_mem hf) e.id (by simp)
      rw [List.find?_append, hpre]
      simp

/-- A query that reads the event of an id. -/
theorem wp_getEvent (hc : Consistent env s) (id : String) :
    S.Wp sdk (fun h x s' => Consistent env s' ∧ S.drift s s' ∧ x.2 = store ∧
      ((store.closed = true ∧ ∃ e, x.1 = .error e ∧ e.cls = .closedStoreError) ∨
      (∃ e e₀, x.1 = .error e ∧ eventKey env store.address id = .error e₀) ∨
      (∃ rec ∈ h, ∃ e, S.Lost sdk rec ∧ x.1 = .error e) ∨
      ∃ L : List (LogEvent F), s'.tables.events store.address = L ∧
        x.1 = .ok ((L.find? fun e => e.id = id).map LogEvent.toEvent))) []
      (EventStore.getEvent env id store) s := by
  have hrefl : S.drift s s := S.drift_quiet s s (same_refl s)
  unfold EventStore.getEvent
  apply wp_ensureOpen
  · intro e hclosed he
    exact ⟨hc, hrefl, rfl, .inl ⟨hclosed, e, rfl, he⟩⟩
  · intro hopen
    unfold EventStore.eventRecord
    rw [wp_bind, wp_bind, wp_get, wp_andThen_ok, wp_lift]
    change S.Wp sdk _ _ (Method.andThen _ (eventKey env store.address id, store)) s
    cases hrecord : eventKey env store.address id with
    | error e₀ =>
      rw [wp_andThen_error]
      exact ⟨hc, hrefl, rfl, .inr (.inl ⟨e₀, e₀, rfl, rfl⟩)⟩
    | ok record =>
      rw [wp_andThen_ok, wp_bind]
      apply wp_read
      · intro t r ws h
        cases h
        rfl
      · exact hc
      · intro s₁ r hrely hc₁ hr
        have hd := S.drift_rely _ _ hrely
        rcases hr with rfl | ⟨hlost, e, he, rfl⟩
        · have hlookup := ledger_event_eq hrecord s₁.tables
          rcases find_event hc₁.1 store.address id with
            ⟨hnone, hfind⟩ | ⟨row, e, hsome, hrow, hs, hr, hfind⟩
          · simp only [Stmt.exec, Except.map, wp_done, wp_andThen_ok, ← hlookup, hnone, wp_pure]
            refine ⟨hc₁, hd, trivial, .inr (.inr (.inr ⟨_, rfl, ?_⟩))⟩
            rw [hfind]
            rfl
          · have hscope : ¬ (row.scope ≠ store.scope ∨ row.runId ≠ store.runId) := by
              simp only [not_or, not_not]
              exact ⟨hs, hr⟩
            simp only [Stmt.exec, Except.map, wp_done, wp_andThen_ok, ← hlookup, hsome,
              EventStore.assertRowScope, wp_bind, wp_get, wp_lift, raiseIf, if_neg hscope, hrow,
              recordToEvent_record, wp_pure]
            refine ⟨hc₁, hd, trivial, .inr (.inr (.inr ⟨_, rfl, ?_⟩))⟩
            rw [hfind]
            rfl
        · rw [wp_done, wp_andThen_error]
          exact ⟨hc₁, hd, rfl, .inr (.inr (.inl ⟨_, by simp, e, hlost, rfl⟩))⟩

lemma exec_countEvents (scope runId : String) (t : Tables) :
    (Stmt.countEvents scope runId).exec sdk t =
      .ok (if (t.eventRows scope runId).length = 0 then none
        else some ((t.eventRows scope runId).length : Int), []) := by
  cases hrows : t.eventRows scope runId with
  | nil => simp [Stmt.exec, hrows]
  | cons row rows => simp [Stmt.exec, hrows]

theorem wp_count (hc : Consistent env s) :
    S.Wp sdk (fun h x s' => Consistent env s' ∧ S.drift s s' ∧ x.2 = store ∧
      ((store.closed = true ∧ ∃ e, x.1 = .error e ∧ e.cls = .closedStoreError) ∨
      (∃ rec ∈ h, ∃ e, S.Lost sdk rec ∧ x.1 = .error e) ∨
      ∃ L : List (LogEvent F), s'.tables.events store.address = L ∧ x.1 = .ok (L.length : Int))) []
      (EventStore.count store) s := by
  have hrefl : S.drift s s := S.drift_quiet s s (same_refl s)
  unfold EventStore.count
  rw [wp_bind, wp_get, wp_andThen_ok]
  apply wp_ensureOpen
  · intro e hclosed he
    exact ⟨hc, hrefl, rfl, .inl ⟨hclosed, e, rfl, he⟩⟩
  · intro hopen
    rw [wp_bind]
    apply wp_read
    · intro t r ws h
      rw [exec_countEvents] at h
      cases h
      rfl
    · exact hc
    · intro s₁ r hrely hc₁ hr
      have hd := S.drift_rely _ _ hrely
      rcases hr with rfl | ⟨hlost, e, he, rfl⟩
      · have hrows : s₁.tables.eventRows store.scope store.runId =
            chainRows env store.scope store.runId (s₁.tables.events store.address) :=
          eventRows_eq hc₁.1 store.address
        rw [exec_countEvents, hrows, length_chainRows]
        simp only [Except.map, wp_done, wp_andThen_ok, wp_pure]
        refine ⟨hc₁, hd, trivial, .inr (.inr ⟨_, rfl, ?_⟩)⟩
        split
        · next hzero => simp [hzero]
        · rfl
      · rw [wp_done, wp_andThen_error]
        exact ⟨hc₁, hd, rfl, .inr (.inl ⟨_, by simp, e, hlost, rfl⟩)⟩

end queries

end ActiveGraphSurreal
