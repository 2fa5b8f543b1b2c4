import ActiveGraphSurreal.Proofs.Canonical

/-!
# The rows of a list of events

`chainRows` are the rows that the provider keeps for a list of events and `headOf` is the
hash in the head of the run. `verifyRows` accepts them, and whatever it accepts has the
same hashes as the list of log events that it decodes to.
-/

namespace ActiveGraphSurreal

open Library

set_option linter.unusedSectionVars false

variable {F X : Type} [Json.ScalarText F] (env : Env F X)

def rowsFrom (s r : String) (n : Nat) (prev : Option String) : List (LogEvent F) → List EventRow
  | [] => []
  | e :: es => EventStore.eventRow s r e.record n prev (e.link env s r n prev) ::
      rowsFrom s r (n + 1) (some (e.link env s r n prev)) es

def chainRows (s r : String) (es : List (LogEvent F)) : List EventRow := rowsFrom env s r 0 none es

def headOf (s r : String) (es : List (LogEvent F)) : Option String :=
  chainHead (LogEvent.link env s r) es

variable {env} {s r : String}

lemma length_rowsFrom (n : Nat) (prev : Option String) (es : List (LogEvent F)) :
    (rowsFrom env s r n prev es).length = es.length := by
  induction es generalizing n prev with
  | nil => rfl
  | cons e es ih => rw [rowsFrom, List.length_cons, ih, List.length_cons]

lemma rowsFrom_append (n : Nat) (prev : Option String) (es fs : List (LogEvent F)) :
    rowsFrom env s r n prev (es ++ fs) = rowsFrom env s r n prev es ++
      rowsFrom env s r (n + es.length) (headFrom (LogEvent.link env s r) n prev es) fs := by
  induction es generalizing n prev with
  | nil => rfl
  | cons e es ih =>
    rw [List.cons_append, rowsFrom, ih, rowsFrom, List.cons_append, headFrom, List.length_cons,
      show n + 1 + es.length = n + (es.length + 1) by omega]

@[simp] lemma length_chainRows (es : List (LogEvent F)) :
    (chainRows env s r es).length = es.length := length_rowsFrom 0 none es

@[simp] lemma chainRows_concat (es : List (LogEvent F)) (e : LogEvent F) :
    chainRows env s r (es ++ [e]) = chainRows env s r es ++
      [EventStore.eventRow s r e.record es.length (headOf env s r es)
        (e.link env s r es.length (headOf env s r es))] := by
  unfold chainRows
  rw [rowsFrom_append, Nat.zero_add]
  rfl

@[simp] lemma headOf_nil : headOf env s r ([] : List (LogEvent F)) = none := rfl

@[simp] lemma headOf_concat (es : List (LogEvent F)) (e : LogEvent F) :
    headOf env s r (es ++ [e]) = some (e.link env s r es.length (headOf env s r es)) :=
  chainHead_concat _ es e

/-- Without collisions the head commits to the list. -/
theorem headOf_inj (hsha : CollisionFree env) {es fs : List (LogEvent F)}
    (h : headOf env s r es = headOf env s r fs) : es = fs :=
  chainHead_inj (link_injective hsha s r) (fun _ _ => trivial) (fun _ _ => trivial) h

/-! ### What a row of a chain looks like -/

lemma mem_rowsFrom {n : Nat} {prev : Option String} {es : List (LogEvent F)} {row : EventRow}
    (h : row ∈ rowsFrom env s r n prev es) :
    row.scope = s ∧ row.runId = r ∧ n ≤ row.seq ∧ row.seq < n + es.length ∧
      ∃ e ∈ es, row.toEventRecord = e.record := by
  induction es generalizing n prev with
  | nil => simp [rowsFrom] at h
  | cons e es ih =>
    rw [rowsFrom, List.mem_cons] at h
    rcases h with rfl | h
    · refine ⟨rfl, rfl, le_rfl, ?_, e, by simp, rfl⟩
      simp only [EventStore.eventRow, List.length_cons]
      omega
    · obtain ⟨hs, hr, hn, hlt, f, hf, hrec⟩ := ih h
      refine ⟨hs, hr, by omega, ?_, f, by simp [hf], hrec⟩
      simp only [List.length_cons]
      omega

lemma pairwise_rowsFrom (n : Nat) (prev : Option String) (es : List (LogEvent F)) :
    (rowsFrom env s r n prev es).Pairwise fun a b => a.seq < b.seq := by
  induction es generalizing n prev with
  | nil => exact List.Pairwise.nil
  | cons e es ih =>
    refine List.Pairwise.cons (fun row hrow => ?_) (ih _ _)
    obtain ⟨-, -, hn, -⟩ := mem_rowsFrom hrow
    simp only [EventStore.eventRow]
    omega

lemma pairwise_chainRows (es : List (LogEvent F)) :
    (chainRows env s r es).Pairwise fun a b => a.seq < b.seq := pairwise_rowsFrom 0 none es

lemma eventIds_rowsFrom (n : Nat) (prev : Option String) (es : List (LogEvent F)) :
    (rowsFrom env s r n prev es).map (·.eventId) = es.map (·.id) := by
  induction es generalizing n prev with
  | nil => rfl
  | cons e es ih =>
    rw [rowsFrom, List.map_cons, ih, List.map_cons]
    rfl

variable (env s r) in
@[simp] lemma eventIds_chainRows (es : List (LogEvent F)) :
    (chainRows env s r es).map (·.eventId) = es.map (·.id) := eventIds_rowsFrom 0 none es

/-- The rows below a position are the rows of the prefix. -/
lemma mem_chainRows_take {es : List (LogEvent F)} {n : Nat} {row : EventRow} :
    row ∈ chainRows env s r (es.take n) ↔ row ∈ chainRows env s r es ∧ row.seq < n := by
  by_cases hn : n ≤ es.length
  · have hsplit : chainRows env s r es = chainRows env s r (es.take n) ++
        rowsFrom env s r n (headOf env s r (es.take n)) (es.drop n) := by
      conv_lhs => rw [← List.take_append_drop n es]
      unfold chainRows
      rw [rowsFrom_append, List.length_take_of_le hn, Nat.zero_add]
      rfl
    rw [hsplit, List.mem_append]
    constructor
    · intro h
      obtain ⟨-, -, -, hlt, -⟩ := mem_rowsFrom h
      rw [List.length_take_of_le hn] at hlt
      exact ⟨.inl h, by omega⟩
    · rintro ⟨h | h, hlt⟩
      · exact h
      · obtain ⟨-, -, hge, -⟩ := mem_rowsFrom h
        omega
  · rw [List.take_of_length_le (by omega)]
    refine ⟨fun h => ⟨h, ?_⟩, And.left⟩
    obtain ⟨-, -, -, hlt, -⟩ := mem_rowsFrom h
    omega

/-- The row at a position. -/
lemma mem_chainRows_seq {es : List (LogEvent F)} {row : EventRow}
    (h : row ∈ chainRows env s r es) : ∃ pre e post, es = pre ++ e :: post ∧
      row = EventStore.eventRow s r e.record pre.length (headOf env s r pre)
        (e.link env s r pre.length (headOf env s r pre)) := by
  induction es using List.reverseRecOn with
  | nil => simp [chainRows, rowsFrom] at h
  | append_singleton es e ih =>
    rw [chainRows_concat, List.mem_append, List.mem_singleton] at h
    rcases h with h | h
    · obtain ⟨pre, f, post, rfl, hrow⟩ := ih h
      exact ⟨pre, f, post ++ [e], by simp, hrow⟩
    · exact ⟨es, e, [], by simp, h⟩

/-! ### Verification -/

lemma verifyRows_cons_ok {n : Nat} {prev h : Option String} {row : EventRow}
    {rows : List EventRow}
    (hok : EventStore.verifyRows env s r n prev (row :: rows) = .ok h) :
    row.scope = s ∧ row.runId = r ∧ row.seq = n ∧ row.previousHash = prev ∧
      ∃ event, recordToEvent env row.toEventRecord = .ok event ∧
        eventHash env s r row.seq event row.previousHash = .ok row.hash ∧
        EventStore.verifyRows env s r (n + 1) (some row.hash) rows = .ok h := by
  obtain ⟨_, hscope, hok⟩ := bind_eq_ok.mp hok
  obtain ⟨_, hseq, hok⟩ := bind_eq_ok.mp hok
  obtain ⟨_, hprev, hok⟩ := bind_eq_ok.mp hok
  obtain ⟨event, hevent, hok⟩ := bind_eq_ok.mp hok
  obtain ⟨calculated, hhash, hok⟩ := bind_eq_ok.mp hok
  obtain ⟨_, hcalc, hok⟩ := bind_eq_ok.mp hok
  simp only [raiseIf_eq_ok, not_or, not_not] at hscope hseq hprev hcalc
  obtain rfl := hcalc
  exact ⟨hscope.1, hscope.2, hseq, hprev, event, hevent, hhash, hok⟩

lemma verifyRows_rowsFrom (henc : EncodesJson env) (n : Nat) (prev : Option String)
    (es : List (LogEvent F)) :
    EventStore.verifyRows env s r n prev (rowsFrom env s r n prev es) =
      .ok (headFrom (LogEvent.link env s r) n prev es) := by
  induction es generalizing n prev with
  | nil => rfl
  | cons e es ih =>
    have hhash := eventHash_toEvent henc s r n prev e
    rw [rowsFrom, EventStore.verifyRows]
    simp only [EventStore.eventRow, recordToEvent_record, raiseIf, ne_eq, not_true_eq_false,
      or_self, if_false]
    simp only [bind, Except.bind, hhash, not_true_eq_false, if_false]
    exact ih (n + 1) _

theorem verifyRows_chainRows (henc : EncodesJson env) (es : List (LogEvent F)) :
    EventStore.verifyRows env s r 0 none (chainRows env s r es) = .ok (headOf env s r es) :=
  verifyRows_rowsFrom henc 0 none es

/-- A row decodes to an event that is this log event but for the order of keys. -/
def Decodes (env : Env F X) (row : EventRow) (e : LogEvent F) : Prop :=
  ∃ (event : Event F X) (j : Json F) (hj : j.Distinct),
    recordToEvent env row.toEventRecord = .ok event ∧ event.payload = plain j ∧
      e = withPayload event j hj

/-- Accepted rows, whoever wrote them, decode to a list of events, and the last hash is the
head of that list. -/
theorem verifyRows_decodes (henc : EncodesJson env) {n : Nat} {prev h : Option String}
    {rows : List EventRow} (hok : EventStore.verifyRows env s r n prev rows = .ok h) :
    ∃ es, List.Forall₂ (Decodes env) rows es ∧ h = headFrom (LogEvent.link env s r) n prev es := by
  induction rows generalizing n prev with
  | nil => exact ⟨[], .nil, (Except.ok.inj hok).symm⟩
  | cons row rows ih =>
    obtain ⟨-, -, hseq, hprev, event, hevent, hhash, hrest⟩ := verifyRows_cons_ok hok
    obtain ⟨es, hall, hhead⟩ := ih hrest
    obtain ⟨j, hj, hpayload⟩ := bind_eq_ok.mp hevent
    obtain rfl := pure_eq_ok.mp hpayload
    have hdistinct : j.Distinct := loads_distinct hj
    rw [hseq, hprev, eventHash_plain henc hdistinct rfl] at hhash
    refine ⟨_ :: es, .cons ⟨_, j, hdistinct, hevent, rfl, rfl⟩ hall, ?_⟩
    rw [hhead, ← Except.ok.inj hhash]
    rfl

/-! ### The two queries together -/

lemma verify_ok_iff {rows rows' : List EventRow} {run : Option RunRow} {run' : RunRow} :
    EventStore.verify env s r rows run = .ok (rows', run') ↔
      run = some run' ∧ rows' = rows ∧ run'.nextSeq = rows.length ∧
        EventStore.verifyRows env s r 0 none rows = .ok run'.headHash := by
  cases run with
  | none => simp [EventStore.verify]
  | some run =>
    constructor
    · intro h
      obtain ⟨previousHash, hrows, h⟩ := bind_eq_ok.mp h
      obtain ⟨_, hn, h⟩ := bind_eq_ok.mp h
      obtain ⟨_, hh, h⟩ := bind_eq_ok.mp h
      simp only [raiseIf_eq_ok, not_not] at hn hh
      obtain ⟨rfl, rfl⟩ := Prod.mk.inj (pure_eq_ok.mp h)
      exact ⟨rfl, rfl, hn, hh ▸ hrows⟩
    · rintro ⟨hrun, rfl, hn, hrows⟩
      obtain rfl := Option.some.inj hrun
      simp [EventStore.verify, hrows, hn, raiseIf, bind, Except.bind, pure, Except.pure]

/-- Rows and head written by the provider are accepted together exactly when they are of
one list. -/
theorem verify_chainRows (hsha : CollisionFree env) (henc : EncodesJson env)
    {L M : List (LogEvent F)} {run : RunRow} (hn : run.nextSeq = M.length)
    (hh : run.headHash = headOf env s r M) :
    (L = M ∧ EventStore.verify env s r (chainRows env s r L) (some run) =
      .ok (chainRows env s r L, run)) ∨
    (L ≠ M ∧ ∃ text, EventStore.verify env s r (chainRows env s r L) (some run) =
      .error ⟨.ledgerIntegrityError, text⟩) := by
  by_cases heq : L = M
  · subst heq
    left
    refine ⟨rfl, verify_ok_iff.mpr ⟨rfl, rfl, ?_, ?_⟩⟩
    · rw [hn, length_chainRows]
    · rw [verifyRows_chainRows henc, hh]
  · right
    refine ⟨heq, ?_⟩
    have hhead : run.headHash ≠ headOf env s r L := by
      rw [hh]
      exact fun h => heq (headOf_inj hsha h).symm
    by_cases hlen : run.nextSeq = L.length
    · simp [EventStore.verify, verifyRows_chainRows henc, hlen, hhead, raiseIf, bind, Except.bind]
    · simp [EventStore.verify, verifyRows_chainRows henc, hlen, raiseIf, bind, Except.bind]

end ActiveGraphSurreal
