import ActiveGraphSurreal.Proofs.Conversions

/-!
# Which failures of a write are reported as they are

`append`, `truncate_after` and `fork_prefix` against the same methods without conversions. An
exception of a transaction is replaced exactly when its text contains one of the words, and in a
fork also when the look at the destination finds a run or fails.
-/

namespace ActiveGraphSurreal

open Library

set_option linter.unusedSectionVars false

variable {F X : Type} [Json.ScalarText F] {env : Env F X} {ℓ α β σ : Type}

/-! ### The constructor of the child -/

section construct

variable {serve : Server Call Answer σ}

lemma tame_readRunRow (hsdk : SdkErrors serve) :
    Tame serve (EventStore.readRunRow : Py EventStore (Option RunRow)) := by
  refine tame_get.bind fun self => (tame_query hsdk _).bind fun row => ?_
  cases row with
  | none => exact tame_pure none
  | some row => exact (tame_raiseIf (ledger_ne _)).bind fun _ => tame_pure (some row)

lemma tame_ensureRun (hsdk : SdkErrors serve) (now : String) :
    Tame serve (EventStore.ensureRun now) := by
  refine tame_get.bind fun self => (tame_readRunRow hsdk).bind fun row => ?_
  cases row with
  | some row => exact tame_pure ()
  | none =>
    refine (tame_query hsdk _).tryCatch fun e he => ?_
    exact (tame_readRunRow hsdk).bind fun row => tame_raiseIf he

lemma tame_verifyIntegrity (hsdk : SdkErrors serve) (hencoder : EncoderErrors env) :
    Tame serve (EventStore.verifyIntegrity env) := by
  have hopen : Tame serve EventStore.ensureOpen :=
    tame_get.bind fun self => tame_raiseIf (by decide)
  have hverified : Tame serve (EventStore.verifiedRowsAndRun env) := by
    refine tame_get.bind fun self => hopen.bind fun _ => (tame_query hsdk _).bind fun rows => ?_
    exact (tame_readRunRow hsdk).bind fun run => tame_lift fun e he => verify_cls hencoder he
  exact hverified.bind fun p => tame_pure _

lemma tame_construct (hsdk : SdkErrors serve) (hencoder : EncoderErrors env)
    (runId scope now : String) : Tame serve (EventStore.construct env runId scope now) := by
  have hbody : Tame serve (do
      let _ ← ensureSchema schemaVersion false
      let runRecord ← lift (recordId env.sha256 .agRun [scope, runId])
      modify fun self => { self with runRecord }
      EventStore.ensureRun now
      let report ← EventStore.verifyIntegrity env
      modify fun self => { self with
        expectedNextSeq := report.nextSeq
        expectedHeadHash := report.headHash } : Py EventStore Unit) := by
    refine (tame_ensureSchema hsdk schemaVersion).bind fun _ => ?_
    refine (tame_lift fun e he => ?_).bind fun record => ?_
    · rw [recordId_error he]
      intro hcls
      cases hcls
    refine (tame_modify _).bind fun _ => (tame_ensureRun hsdk now).bind fun _ => ?_
    exact (tame_verifyIntegrity hsdk hencoder).bind fun report => tame_modify _
  refine (tame_raiseIf (by decide)).bind fun _ => (tame_raiseIf (by decide)).bind fun _ => ?_
  refine (tame_modify _).bind fun _ => (tame_query hsdk .connect).bind fun _ => ?_
  exact hbody.tryCatch fun e he => (tame_modify _).bind fun _ => tame_throw he

lemma tame_new (hsdk : SdkErrors serve) (hencoder : EncoderErrors env)
    (runId scope now : String) : Tame serve (EventStore.new env runId scope now : Py ℓ EventStore) := by
  intro l s h x l' s' he
  obtain ⟨⟨y, self⟩, s₁, h₁, h₂, hfirst, hrest, rfl⟩ := Prog.exec_bind_iff.mp he
  have hcalm := tame_construct hsdk hencoder runId scope now _ _ _ _ _ _ hfirst
  cases y with
  | error e =>
    obtain ⟨rfl, hend, -⟩ := Prog.exec_done_iff.mp hrest
    obtain ⟨rfl, rfl⟩ := Prod.mk.inj hend
    rw [List.append_nil]
    refine ⟨hcalm.1, fun e' he' => ?_⟩
    rw [← Except.error.inj he']
    exact hcalm.2 e rfl
  | ok u =>
    obtain ⟨rfl, hend, -⟩ := Prog.exec_done_iff.mp hrest
    obtain ⟨rfl, rfl⟩ := Prod.mk.inj hend
    rw [List.append_nil]
    exact ⟨hcalm.1, fun e' he' => by cases he'⟩

end construct

/-! ### The steps of a fork before its transaction -/

section fork

variable {serve : Server Call Answer σ} {store : EventStore} {record : Option RunRow}

lemma mapM_error {R A : Type} {f : R → Except PyErr A} {rows : List R} {e : PyErr}
    (h : rows.mapM f = .error e) : ∃ row ∈ rows, f row = .error e := by
  induction rows with
  | nil => cases h
  | cons row rows ih =>
    rw [List.mapM_cons] at h
    rcases bind_eq_error.mp h with hrow | ⟨a, -, h⟩
    · exact ⟨row, List.mem_cons_self .., hrow⟩
    rcases bind_eq_error.mp h with hrows | ⟨as, -, hdone⟩
    · obtain ⟨row', hrow', herror⟩ := ih hrows
      exact ⟨row', List.mem_cons_of_mem _ hrow', herror⟩
    · cases hdone

/-- A handle that knows its own run to be there does not take it for a free destination. -/
lemma passes_destinationExists (hsdk : SdkErrors serve) (newRunId : String) {row : RunRow}
    (hrecord : record = some row) :
    Passes serve store record (EventStore.destinationExists env newRunId) fun taken =>
      ∃ ck, runKey env (store.scope, newRunId) = .ok ck ∧
        (taken = false → ck ≠ store.runRecord) := by
  cases hkey : runKey env (store.scope, newRunId) with
  | error e =>
    have herror : EventStore.destinationExists env newRunId store = .done (.error e, store) := by
      unfold EventStore.destinationExists
      change ((lift (recordId env.sha256 .agRun [store.scope, newRunId]) : Py EventStore _) >>= _)
        store = _
      rw [show recordId env.sha256 .agRun [store.scope, newRunId] = .error e from hkey]
      rfl
    refine Method.meets_done herror fun _ => ⟨rfl, calm_nil fun e' he' => ?_, fun a ha => ?_⟩
    · rw [← Except.error.inj he', recordId_error hkey]
      intro hcls
      cases hcls
    · cases ha
  | ok ck =>
    intro s h x l' s' he hsteady
    obtain ⟨hl, s₁, a, s₂, rfl, rfl⟩ := meets_destinationExists hkey _ _ _ _ _ he
    refine ⟨hl, ⟨fun rec hrec => ?_, fun e' he' => ?_⟩, fun taken htaken => ⟨ck, rfl, ?_⟩⟩
    · rw [List.mem_singleton.mp hrec]
      trivial
    · cases a with
      | error e =>
        rw [← Except.error.inj he']
        exact sdk_ne (hsdk _ s₁ s₂ e (he.served (List.mem_singleton_self _)))
      | ok found => cases he'
    · rintro rfl rfl
      cases a with
      | error e => cases htaken
      | ok found =>
        have hfound : found = record := hsteady _ (.inl ⟨s₁, s₂, List.mem_singleton_self _⟩)
        rw [hfound, hrecord] at htaken
        cases Except.ok.inj htaken

end fork

/-! ### The calls and their plain forms -/

section

variable (env)

def appendPlainly (event : Event F X) : Py EventStore Unit := do
  let encoded ← lift (eventToRecord env event)
  EventStore.ensureOpen
  beginTransaction
  Method.tryElse (EventStore.appendTransaction env event encoded) withdraw EventStore.observe

def truncatePlainly (eventId : String) : Py EventStore Unit := do
  EventStore.ensureOpen
  beginTransaction
  Method.tryElse (EventStore.truncateTransaction env eventId) withdraw EventStore.observe

def forkPlainly (newRunId atEventId : String) (label : Option String) (now now' : String) :
    Py EventStore EventStore := do
  let self ← get
  EventStore.ensureOpen
  let (rows, parentRow) ← EventStore.verifiedRowsAndRun env
  EventStore.assertExpectedHead env parentRow
  lift (raiseIf (rows.head?.any fun row => row.eventType = "runtime.snapshot")
    ⟨.unsupportedCompactedRunError, "runtime.snapshot logs are outside the preview fork contract"⟩)
  match EventStore.prefixRows atEventId rows with
  | none => throw ⟨.forkPointNotFoundError,
      "fork point " ++ env.repr atEventId ++ " is absent from run " ++ env.repr self.runId⟩
  | some kept =>
    let taken ← EventStore.destinationExists env newRunId
    lift (raiseIf taken (EventStore.runExistsError env newRunId))
    let events ← lift (kept.mapM fun row => recordToEvent env row.toEventRecord)
    let childRecord ← lift (recordId env.sha256 .agRun [self.scope, newRunId])
    let (rowsOfChild, headHash) ←
      lift (EventStore.childEvents env self.scope newRunId 0 none events)
    let child := EventStore.childRun self newRunId atEventId label now parentRow
      rowsOfChild.length headHash
    beginTransaction
    Method.tryElse
      (EventStore.forkTransaction env newRunId rows parentRow child childRecord rowsOfChild)
      withdraw fun _ => EventStore.new env newRunId self.scope now'

end

/-- The three methods that write in a transaction. -/
inductive WriteCall (F X : Type) where
  | append (event : Event F X)
  | truncateAfter (eventId : String)
  | forkPrefix (newRunId atEventId : String) (label : Option String) (now now' : String)

namespace WriteCall

def Result : WriteCall F X → Type
  | append _ | truncateAfter _ => Unit
  | forkPrefix .. => EventStore

variable (env)

def run : (call : WriteCall F X) → Py EventStore call.Result
  | append event => EventStore.append env event
  | truncateAfter eventId => EventStore.truncateAfter env eventId
  | forkPrefix newRunId atEventId label now now' =>
    EventStore.forkPrefix env newRunId atEventId label now now'

/-- The same method whose transaction is withdrawn without conversions. -/
def plainly : (call : WriteCall F X) → Py EventStore call.Result
  | append event => appendPlainly env event
  | truncateAfter eventId => truncatePlainly env eventId
  | forkPrefix newRunId atEventId label now now' =>
    forkPlainly env newRunId atEventId label now now'

end WriteCall

/-! ### When an exception is replaced -/

section

variable (env) (store : EventStore) (h : List (CallRec Call Answer σ))

/-- A trouble of the transaction has one of the words in its text. -/
def TroubleHasWord : Prop := ∃ e, Trouble env store h e ∧ hasConflictWord e.text = true

/-- A trouble has one of the words, or the look at the run record finds its head changed. -/
def WriteMisleads : Prop := TroubleHasWord env store h ∨ Changed store (afterCancel h)

/-- The look at the destination after a trouble finds a run there, or fails with something else,
or finds nothing, and the words or the head mislead. -/
def LookMisleads : Except PyErr (Option RunRow) → Prop
  | .error e => ¬ Trouble env store h e
  | .ok (some _) => True
  | .ok none => WriteMisleads env store h

/-- The answers to a fork lead to another exception than that of its transaction. -/
def ForkMisleads (newRunId : String) : Prop :=
  ∃ ck, runKey env (store.scope, newRunId) = .ok ck ∧
    ∃ a, Answered (afterCancel h) (.query (.selectRun ck)) a ∧ LookMisleads env store h a

def WriteCall.Misleads : WriteCall F X → Prop
  | .append _ | .truncateAfter _ => WriteMisleads env store h
  | .forkPrefix newRunId _ _ _ _ => ForkMisleads env store h newRunId

end

section misleads

variable {store : EventStore} {h₀ h h₁ h₂ : List (CallRec Call Answer σ)}

lemma not_trouble_outer (hcalls : ∀ rec ∈ h₀, Outer rec.call) (e : PyErr) :
    ¬ Trouble env store h₀ e :=
  not_trouble_calm (x := (.ok () : Except PyErr Unit)) ⟨hcalls, fun _ he => by cases he⟩

lemma trouble_outer_append (hcalls : ∀ rec ∈ h₀, Outer rec.call) (e : PyErr) :
    Trouble env store (h₀ ++ h) e ↔ Trouble env store h e := by
  rw [trouble_append, or_iff_right (not_trouble_outer hcalls e)]

lemma not_changed_nil : ¬ Changed store ([] : List (CallRec Call Answer σ)) := by
  rintro ⟨row, hrow, -⟩
  exact not_answered_nil hrow

lemma writeMisleads_outer (hcalls : ∀ rec ∈ h₀, Outer rec.call) :
    WriteMisleads env store (h₀ ++ h) ↔ WriteMisleads env store h := by
  unfold WriteMisleads TroubleHasWord
  rw [afterCancel_append (outer_ne_cancel hcalls)]
  simp only [trouble_outer_append hcalls]

lemma forkMisleads_outer {newRunId : String} (hcalls : ∀ rec ∈ h₀, Outer rec.call) :
    ForkMisleads env store (h₀ ++ h) newRunId ↔ ForkMisleads env store h newRunId := by
  have hlook : ∀ a, LookMisleads env store (h₀ ++ h) a ↔ LookMisleads env store h a := by
    rintro (e | _ | row)
    · exact not_congr (trouble_outer_append hcalls e)
    · exact writeMisleads_outer hcalls
    · exact Iff.rfl
  unfold ForkMisleads
  rw [afterCancel_append (outer_ne_cancel hcalls)]
  simp only [hlook]

lemma not_writeMisleads_nil : ¬ WriteMisleads env store ([] : List (CallRec Call Answer σ)) := by
  rintro (⟨e, he, -⟩ | hchanged)
  · exact absurd he (not_trouble [] fun rec hrec => by cases hrec)
  · exact not_changed_nil hchanged

lemma not_forkMisleads_nil {newRunId : String} :
    ¬ ForkMisleads env store ([] : List (CallRec Call Answer σ)) newRunId := by
  rintro ⟨ck, -, a, hanswered, -⟩
  exact not_answered_nil hanswered

/-- Nothing is withdrawn. -/
lemma afterCancel_done (hinner : ∀ rec ∈ h₁, Inner rec.call)
    (hcalls : ∀ rec ∈ h₂, Outer rec.call) : afterCancel (h₁ ++ h₂) = [] := by
  rw [afterCancel_append (inner_ne_cancel hinner), ← List.append_nil h₂,
    afterCancel_append (outer_ne_cancel hcalls)]
  rfl

lemma not_writeMisleads_done (hinner : ∀ rec ∈ h₁, Inner rec.call)
    (hnone : ∀ e, ¬ Trouble env store h₁ e) (hcalls : ∀ rec ∈ h₂, Outer rec.call) :
    ¬ WriteMisleads env store (h₁ ++ h₂) := by
  rintro (⟨e, he, -⟩ | hchanged)
  · rcases trouble_append.mp he with h | h
    · exact hnone e h
    · exact not_trouble_outer hcalls e h
  · rw [afterCancel_done hinner hcalls] at hchanged
    exact not_changed_nil hchanged

lemma not_forkMisleads_done {newRunId : String} (hinner : ∀ rec ∈ h₁, Inner rec.call)
    (hcalls : ∀ rec ∈ h₂, Outer rec.call) : ¬ ForkMisleads env store (h₁ ++ h₂) newRunId := by
  rintro ⟨ck, -, a, hanswered, -⟩
  rw [afterCancel_done hinner hcalls] at hanswered
  exact not_answered_nil hanswered

end misleads

/-! ### The `except` branches and the transactions -/

section withdrawn

variable {store : EventStore} {harmless : PyErr → Prop} {R : α → Prop}
  {h rest : List (CallRec Call Answer σ)} {exc : PyErr} {s s' : σ} {r : Except PyErr Unit}

/-- The troubles of the whole call are those of the transaction. -/
lemma trouble_withdrawn (hqueries : ∀ rec ∈ rest, ∃ st, rec.call = .query st) (e : PyErr) :
    Trouble env store (h ++ (⟨.cancel, s, r, s'⟩ : CallRec Call Answer σ) :: rest) e ↔
      Trouble env store h e := by
  rw [trouble_append, or_iff_left (not_trouble_withdrawn hqueries e)]

lemma troubleHasWord_withdrawn (hinside : InsideOf env store harmless R h (.error exc) store)
    (hqueries : ∀ rec ∈ rest, ∃ st, rec.call = .query st) :
    TroubleHasWord env store (h ++ (⟨.cancel, s, r, s'⟩ : CallRec Call Answer σ) :: rest) ↔
      Trouble env store h exc ∧ hasConflictWord exc.text = true := by
  unfold TroubleHasWord
  simp only [trouble_withdrawn hqueries]
  constructor
  · rintro ⟨e, he, htext⟩
    rw [Except.error.inj (hinside.raised e he)]
    exact ⟨he, htext⟩
  · rintro ⟨he, htext⟩
    exact ⟨exc, he, htext⟩

lemma writeMisleads_withdrawn (hinside : InsideOf env store harmless R h (.error exc) store)
    (hqueries : ∀ rec ∈ rest, ∃ st, rec.call = .query st) :
    WriteMisleads env store (h ++ (⟨.cancel, s, r, s'⟩ : CallRec Call Answer σ) :: rest) ↔
      (Trouble env store h exc ∧ hasConflictWord exc.text = true) ∨ Changed store rest := by
  have hafter : afterCancel (h ++ (⟨.cancel, s, r, s'⟩ : CallRec Call Answer σ) :: rest) = rest :=
    afterCancel_append (inner_ne_cancel hinside.calls)
  unfold WriteMisleads
  rw [troubleHasWord_withdrawn hinside hqueries, hafter]

end withdrawn

/-! ### The three methods -/

section methods

variable {perform : (c : Call) → σ → Answer c × σ} {store : EventStore} {record : Option RunRow}

/-- A call that ends in this exception. -/
lemma reports_iff {m : Py EventStore α} {exc e : PyErr} {s : σ}
    (houtcome : outcome perform m store s = .error e) (hdistinct : exc.cls ≠ .concurrentWriterError) :
    Reports perform m (throw exc) store s ↔ e = exc := by
  constructor
  · rintro ⟨horiginal, -⟩
    exact Except.error.inj (houtcome.symm.trans horiginal)
  · rintro rfl
    refine ⟨houtcome, fun e' he' => ?_⟩
    rw [← Except.error.inj (houtcome.symm.trans he')]
    exact hdistinct

lemma conflicted_ne {exc : PyErr} (hdistinct : exc.cls ≠ .concurrentWriterError) :
    conflicted env store ≠ exc := by
  rintro rfl
  exact hdistinct rfl

/-- The `except` branch of a write to the own run. -/
lemma abandon_reports (hsdk : SdkErrors (serving perform)) {passed : List ErrClass}
    (other : ErrClass) (hother : ¬ other.IsSdk) (hledger : other ≠ .ledgerIntegrityError)
    (hpassed : passed = [other, .concurrentWriterError])
    {h₁ : List (CallRec Call Answer σ)} {exc : PyErr} {s₁ : σ} {R : α → Prop}
    (hinside : InsideOf env store (PassedOn passed) R h₁ (.error exc) store)
    (hcls : ∀ e, Trouble env store h₁ e → e.cls.IsSdk ∨ e.cls = .ledgerIntegrityError) :
    (∀ e, ¬ Trouble env store (answers perform (EventStore.abandon env passed exc) store s₁) e) ∧
      (Reports perform (EventStore.abandon env passed exc) (throw exc) store s₁ ↔
        ¬ WriteMisleads env store
          (h₁ ++ answers perform (EventStore.abandon env passed exc) store s₁)) := by
  obtain ⟨s, r, s', rest, hhistory, habandons⟩ := meets_abandon hsdk passed exc _ _ _ _ _
    (Prog.exec_serving perform (EventStore.abandon env passed exc store) s₁)
  have hanswers : answers perform (EventStore.abandon env passed exc) store s₁ =
      ⟨.cancel, s, r, s'⟩ :: rest := hhistory
  rw [hanswers, writeMisleads_withdrawn hinside habandons.queries]
  refine ⟨not_trouble_withdrawn habandons.queries, ?_⟩
  have htrouble : Trouble env store h₁ exc → exc.cls ≠ .concurrentWriterError ∧ exc.cls ∉ passed := by
    intro h
    subst hpassed
    rcases hcls exc h with hclass | hclass
    · refine ⟨sdk_ne hclass, fun hmem => ?_⟩
      rcases List.mem_cons.mp hmem with heq | heq
      · rw [heq] at hclass
        exact hother hclass
      · exact sdk_ne hclass (List.mem_singleton.mp heq)
    · rw [hclass]
      refine ⟨by decide, fun hmem => ?_⟩
      rcases List.mem_cons.mp hmem with heq | heq
      · exact hledger heq.symm
      · cases List.mem_singleton.mp heq
  have hdistinct : exc.cls ≠ .concurrentWriterError := by
    rcases hinside.harmless exc rfl with h | ⟨hclass, -⟩
    · exact (htrouble h).1
    · exact hclass
  by_cases hmem : exc.cls ∈ passed
  · obtain ⟨hrest, hx⟩ := habandons.raised hmem
    have houtcome : outcome perform (EventStore.abandon env passed exc) store s₁ = .error exc := hx
    rw [reports_iff houtcome hdistinct, hrest]
    refine iff_of_true rfl ?_
    rintro (⟨h, -⟩ | h)
    · exact (htrouble h).2 hmem
    · exact not_changed_nil h
  · obtain ⟨-, hconflict, horiginal⟩ := habandons.looked hmem
    -- outside its list the branch passes on only what has none of the words
    have hword : hasConflictWord exc.text = true → Trouble env store h₁ exc := by
      intro htext
      rcases hinside.harmless exc rfl with h | ⟨-, h | h⟩
      · exact h
      · exact absurd h hmem
      · rw [h] at htext
        cases htext
    by_cases hbad : Changed store rest ∨ hasConflictWord exc.text = true
    · have houtcome : outcome perform (EventStore.abandon env passed exc) store s₁ =
          .error (conflicted env store) := hconflict hbad
      rw [reports_iff houtcome hdistinct]
      refine iff_of_false (conflicted_ne hdistinct) (not_not_intro ?_)
      rcases hbad with h | h
      · exact .inr h
      · exact .inl ⟨hword h, h⟩
    · have houtcome : outcome perform (EventStore.abandon env passed exc) store s₁ =
          .error exc := horiginal hbad
      rw [reports_iff houtcome hdistinct]
      refine iff_of_true rfl ?_
      rintro (⟨-, h⟩ | h)
      · exact hbad (.inr h)
      · exact hbad (.inl h)

/-- The `except` branch of a fork. -/
lemma abandonFork_reports (hsdk : SdkErrors (serving perform)) {newRunId : String}
    {ck : RecordId .agRun} (hkey : runKey env (store.scope, newRunId) = .ok ck)
    (hother : ck ≠ store.runRecord) {h₁ : List (CallRec Call Answer σ)} {exc : PyErr} {s₁ : σ}
    {R : α → Prop}
    (hinside : InsideOf env store (fun e => e.cls = .runAlreadyExistsError) R h₁ (.error exc) store)
    (hcls : ∀ e, Trouble env store h₁ e → e.cls.IsSdk ∨ e.cls = .ledgerIntegrityError) :
    (∀ e, ¬ Trouble env store
        (answers perform (EventStore.abandonFork env newRunId exc) store s₁) e) ∧
      (Reports perform (EventStore.abandonFork env newRunId exc) (throw exc) store s₁ ↔
        ¬ ForkMisleads env store
          (h₁ ++ answers perform (EventStore.abandonFork env newRunId exc) store s₁) newRunId) := by
  obtain ⟨s, r, s', rest, hhistory, habandons⟩ :=
    meets_abandonFork hsdk hkey hother exc _ _ _ _ _
      (Prog.exec_serving perform (EventStore.abandonFork env newRunId exc store) s₁)
  have hanswers : answers perform (EventStore.abandonFork env newRunId exc) store s₁ =
      ⟨.cancel, s, r, s'⟩ :: rest := hhistory
  rw [hanswers]
  refine ⟨not_trouble_withdrawn habandons.queries, ?_⟩
  have hafter : afterCancel (h₁ ++ (⟨.cancel, s, r, s'⟩ : CallRec Call Answer σ) :: rest) = rest :=
    afterCancel_append (inner_ne_cancel hinside.calls)
  have hdistinct : exc.cls ≠ .concurrentWriterError := by
    rcases hinside.harmless exc rfl with h | h
    · rcases hcls exc h with hclass | hclass
      · exact sdk_ne hclass
      · rw [hclass]
        decide
    · rw [h]
      decide
  by_cases hpassed : exc.cls = .concurrentWriterError ∨ exc.cls = .runAlreadyExistsError
  · obtain ⟨hrest, hx⟩ := habandons.raised hpassed
    have houtcome : outcome perform (EventStore.abandonFork env newRunId exc) store s₁ =
        .error exc := hx
    rw [reports_iff houtcome hdistinct]
    refine iff_of_true rfl ?_
    rintro ⟨ck', -, a, hanswered, -⟩
    rw [hafter, hrest] at hanswered
    exact not_answered_nil hanswered
  · have htrouble : Trouble env store h₁ exc := by
      rcases hinside.harmless exc rfl with h | h
      · exact h
      · exact absurd (.inr h) hpassed
    obtain ⟨a, hanswered, hlook⟩ := habandons.looked hpassed
    have hmisleads : ForkMisleads env store
        (h₁ ++ (⟨.cancel, s, r, s'⟩ : CallRec Call Answer σ) :: rest) newRunId ↔
          LookMisleads env store (h₁ ++ (⟨.cancel, s, r, s'⟩ : CallRec Call Answer σ) :: rest) a := by
      unfold ForkMisleads
      rw [hafter]
      constructor
      · rintro ⟨ck', hck', a', ha', hbad⟩
        obtain rfl : ck = ck' := Except.ok.inj (hkey.symm.trans hck')
        obtain rfl := (hanswered a').mp ha'
        exact hbad
      · intro hbad
        exact ⟨ck, hkey, a, (hanswered a).mpr rfl, hbad⟩
    rw [hmisleads]
    rcases a with e | _ | row
    · -- the look fails
      have houtcome : outcome perform (EventStore.abandonFork env newRunId exc) store s₁ =
          .error e := hlook
      rw [reports_iff houtcome hdistinct]
      change e = exc ↔ ¬ ¬ Trouble env store _ e
      rw [not_not, trouble_withdrawn habandons.queries]
      constructor
      · rintro rfl
        exact htrouble
      · intro he
        exact (Except.error.inj (hinside.raised e he)).symm
    · -- the destination is free
      change Reports perform _ _ store s₁ ↔ ¬ WriteMisleads env store _
      rw [writeMisleads_withdrawn hinside habandons.queries]
      obtain ⟨hconflict, horiginal⟩ := hlook
      by_cases hbad : Changed store rest ∨ hasConflictWord exc.text = true
      · have houtcome : outcome perform (EventStore.abandonFork env newRunId exc) store s₁ =
            .error (conflicted env store) := hconflict hbad
        rw [reports_iff houtcome hdistinct]
        refine iff_of_false (conflicted_ne hdistinct) (not_not_intro ?_)
        rcases hbad with h | h
        · exact .inr h
        · exact .inl ⟨htrouble, h⟩
      · have houtcome : outcome perform (EventStore.abandonFork env newRunId exc) store s₁ =
            .error exc := horiginal hbad
        rw [reports_iff houtcome hdistinct]
        refine iff_of_true rfl ?_
        rintro (⟨-, h⟩ | h)
        · exact hbad (.inr h)
        · exact hbad (.inl h)
    · -- there is a run
      have houtcome : outcome perform (EventStore.abandonFork env newRunId exc) store s₁ =
          .error (EventStore.runExistsError env newRunId) := hlook
      rw [reports_iff houtcome hdistinct]
      change _ ↔ ¬ True
      refine iff_of_false (fun hsame => hpassed (.inr ?_)) (not_not_intro trivial)
      rw [← hsame]
      rfl

/-- A write to the own run whose `except` branch is `abandon`. -/
lemma compares_abandon (hsdk : SdkErrors (serving perform)) {passed : List ErrClass}
    (other : ErrClass) (hother : ¬ other.IsSdk) (hledger : other ≠ .ledgerIntegrityError)
    (hpassed : passed = [other, .concurrentWriterError])
    {body : Py EventStore (Int × Option String)}
    (hbody : Inside env (serving perform) store record (PassedOn passed) body fun _ => True) :
    Compares env perform (WriteMisleads env store) store record
      (EventStore.ensureOpen >>= fun _ => beginTransaction >>= fun _ =>
        Method.tryElse body (EventStore.abandon env passed) EventStore.observe)
      (EventStore.ensureOpen >>= fun _ => beginTransaction >>= fun _ =>
        Method.tryElse body withdraw EventStore.observe) := by
  have houter : ∀ h₀ h : List (CallRec Call Answer σ), (∀ rec ∈ h₀, Outer rec.call) →
      (WriteMisleads env store (h₀ ++ h) ↔ WriteMisleads env store h) :=
    fun _ _ hcalls => writeMisleads_outer hcalls
  refine compares_bind houter not_writeMisleads_nil passes_ensureOpen fun _ _ => ?_
  refine compares_bind houter not_writeMisleads_nil (passes_begin hsdk) fun _ _ => ?_
  apply compares_tryElse hsdk hbody
  · exact fun head => tame_modify _
  · exact fun h₁ h₂ hinner hnone hcalls => not_writeMisleads_done hinner hnone hcalls
  · exact fun h₁ exc s₁ hinside hcls =>
      abandon_reports hsdk other hother hledger hpassed hinside hcls

lemma compares_append (hsdk : SdkErrors (serving perform)) (hencoder : EncoderErrors env)
    (hobserved : Observed store record) (henc : EncodesJson env) (hdict : EncodesDict env)
    (event : Event F X) :
    Compares env perform (WriteMisleads env store) store record (EventStore.append env event)
      (appendPlainly env event) := by
  refine compares_bind (R := fun encoded => eventToRecord env event = .ok encoded)
    (fun _ _ hcalls => writeMisleads_outer hcalls) not_writeMisleads_nil
    (passes_lift (fun e he => eventToRecord_cls hencoder he) fun _ h => h) fun encoded hencoded => ?_
  apply compares_abandon hsdk .duplicateEventError (by decide) (by decide) rfl
  exact inside_appendTransaction henc hdict hobserved hencoded

lemma compares_truncateAfter (hsdk : SdkErrors (serving perform))
    (hobserved : Observed store record) (eventId : String) :
    Compares env perform (WriteMisleads env store) store record
      (EventStore.truncateAfter env eventId) (truncatePlainly env eventId) := by
  apply compares_abandon hsdk .eventNotFoundError (by decide) (by decide) rfl
  exact inside_truncateTransaction hobserved eventId

lemma compares_forkPrefix (hsdk : SdkErrors (serving perform)) (hencoder : EncoderErrors env)
    (hobserved : Observed store record) (newRunId atEventId : String) (label : Option String)
    (now now' : String) :
    Compares env perform (fun h => ForkMisleads env store h newRunId) store record
      (EventStore.forkPrefix env newRunId atEventId label now now')
      (forkPlainly env newRunId atEventId label now now') := by
  have houter : ∀ h₀ h : List (CallRec Call Answer σ), (∀ rec ∈ h₀, Outer rec.call) →
      (ForkMisleads env store (h₀ ++ h) newRunId ↔ ForkMisleads env store h newRunId) :=
    fun _ _ hcalls => forkMisleads_outer hcalls
  have hnil : ¬ ForkMisleads env store ([] : List (CallRec Call Answer σ)) newRunId :=
    not_forkMisleads_nil
  refine compares_bind houter hnil passes_get fun self hself => ?_
  subst hself
  refine compares_bind houter hnil passes_ensureOpen fun _ _ => ?_
  refine compares_bind houter hnil (passes_verifiedRowsAndRun hsdk hencoder) ?_
  rintro ⟨rows, parentRow⟩ ⟨hrecord, howns, hnext⟩
  have hexpects : self.expects parentRow := by
    apply hobserved parentRow
    · rw [hrecord]
      exact Option.mem_some_self _
    · exact howns
  have hhead : Passes (serving perform) self record (EventStore.assertExpectedHead env parentRow)
      fun _ => True := by
    refine passes_get.bind fun self' hself => passes_lift (fun e he => ?_) fun _ _ => trivial
    subst hself
    exact absurd hexpects (raiseIf_eq_error.mp he).1
  refine compares_bind houter hnil hhead fun _ _ => ?_
  refine compares_bind houter hnil (passes_raiseIf (by decide)) fun _ _ => ?_
  cases EventStore.prefixRows atEventId rows with
  | none => exact compares_throw hnil fun hcls => by cases hcls
  | some kept =>
    refine compares_bind houter hnil (passes_destinationExists hsdk newRunId hrecord) ?_
    rintro taken ⟨ck, hkey, hfree⟩
    refine compares_bind houter hnil (passes_raiseIf fun hcls => by cases hcls) fun _ htaken => ?_
    have hother : ck ≠ self.runRecord := hfree (eq_false_of_ne_true htaken)
    refine compares_bind (R := fun _ => True) houter hnil
      (passes_lift (fun e he => ?_) fun _ _ => trivial) fun events _ => ?_
    · obtain ⟨row, -, herror⟩ := mapM_error he
      exact recordToEvent_cls herror
    refine compares_bind (R := fun record => record = ck) houter hnil
      (passes_lift (fun e he => ?_) fun childRecord hchild => ?_) fun childRecord hchild => ?_
    · rw [show recordId env.sha256 .agRun [self.scope, newRunId] = .ok ck from hkey] at he
      cases he
    · exact Except.ok.inj (hchild.symm.trans hkey)
    subst hchild
    refine compares_bind (R := fun _ => True) houter hnil
      (passes_lift (fun e he => childEvents_cls hencoder he) fun _ _ => trivial) ?_
    rintro ⟨rowsOfChild, headHash⟩ -
    refine compares_bind houter hnil (passes_begin hsdk) fun _ _ => ?_
    apply compares_tryElse hsdk (inside_forkTransaction hrecord hnext hother)
    · exact fun _ => tame_new hsdk hencoder newRunId self.scope now'
    · exact fun h₁ h₂ hinner _ hcalls => not_forkMisleads_done hinner hcalls
    · exact fun h₁ exc s₁ hinside hcls =>
        abandonFork_reports hsdk hkey hother hinside hcls

/-- A write to a run that nobody else writes raises the exception of its transaction, and not
`ConcurrentWriterError`, exactly when the answers to it do not mislead its `except` branch. -/
theorem write_reports_original_iff (henc : EncodesJson env) (hdict : EncodesDict env)
    (hencoder : EncoderErrors env) (hsdk : SdkErrors (serving perform))
    (hobserved : Observed store record) (call : WriteCall F X) (s : σ)
    (hsteady : Steady store record (answers perform (call.run env) store s)) :
    (∀ e, Trouble env store (answers perform (call.run env) store s) e →
      outcome perform (call.plainly env) store s = .error e) ∧
    (Reports perform (call.run env) (call.plainly env) store s ↔
      ¬ call.Misleads env store (answers perform (call.run env) store s)) := by
  cases call with
  | append event => exact compares_append hsdk hencoder hobserved henc hdict event s hsteady
  | truncateAfter eventId => exact compares_truncateAfter hsdk hobserved eventId s hsteady
  | forkPrefix newRunId atEventId label now now' =>
    exact compares_forkPrefix hsdk hencoder hobserved newRunId atEventId label now now' s hsteady

end methods


/-! ### A stalling database, and a crossed record -/

/-- The database finds the run record and then stalls. -/
def stalling : (c : Call) → Unit → Answer c × Unit
  | .query (.selectRun _), s | .txQuery (.selectRun _), s =>
    (.ok (some (EventStore.newRun "s" "r" "now")), s)
  | .query _, s | .txQuery _, s => (.error ⟨.other "TimeoutError", "timed out"⟩, s)
  | .begin, s | .cancel, s | .commit, s => (.ok (), s)

lemma steady_stalling (m : Py EventStore α) :
    Steady verifyingStore (some (EventStore.newRun "s" "r" "now"))
      (answers stalling m verifyingStore ()) := by
  unfold answers
  have hexec := Prog.exec_serving stalling (m verifyingStore) ()
  rintro r (⟨s, s', hrec⟩ | ⟨s, s', hrec⟩)
  · cases hexec.served (mem_of_beforeCancel hrec)
    rfl
  · cases hexec.served (mem_of_beforeCancel hrec)
    rfl

def writing : WriteCall Unit Empty := .append writtenEvent.toEvent

theorem write_reports_original_iff_stalling :
    (∀ e, Trouble (reference Unit) verifyingStore (answers stalling
        (writing.run (reference Unit)) verifyingStore ()) e →
      outcome stalling (writing.plainly (reference Unit))
        verifyingStore () = .error e) ∧
    (Reports stalling (writing.run (reference Unit))
        (writing.plainly (reference Unit)) verifyingStore () ↔
      ¬ writing.Misleads (reference Unit) verifyingStore
        (answers stalling (writing.run (reference Unit))
          verifyingStore ())) := by
  have hsdk : SdkErrors (serving stalling) := by
    rintro (_ | _ | _ | st | st) s s' e hserved
    · cases hserved
    · cases hserved
    · cases hserved
    · cases st <;> cases hserved <;> trivial
    · cases st <;> cases hserved <;> trivial
  have hencoder : EncoderErrors (reference Unit) := by
    intro value e he
    change (if (strip value).Distinct then _ else _) = _ at he
    split at he
    · cases he
    · rw [← Except.error.inj he]
      decide
  have hobserved : Observed verifyingStore (some (EventStore.newRun "s" "r" "now")) := by
    intro row hrow _
    rw [← Option.some.inj hrow]
    exact ⟨rfl, rfl⟩
  exact write_reports_original_iff reference_encodesJson reference_encodesDict hencoder hsdk
    hobserved _ () (steady_stalling _)

def crossedDatabase : Database := { freshDatabase with
  tables := { Tables.empty with
    run := (∅ : Records RunRow).write "run" (some (EventStore.newRun "s" "other" "now")) } }

-- nobody else writes, and the transaction finds the record of another run
example : outcome ((engine referenceSdk).perform 0) (EventStore.append (reference Unit)
        (writtenEvent.toEvent : Event Unit Empty)) verifyingStore crossedDatabase =
      .error (conflicted (reference Unit) verifyingStore) ∧
    outcome ((engine referenceSdk).perform 0) (appendPlainly (reference Unit)
        (writtenEvent.toEvent : Event Unit Empty)) verifyingStore crossedDatabase =
      .error misScoped := ⟨rfl, rfl⟩

end ActiveGraphSurreal
