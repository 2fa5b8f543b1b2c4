import ActiveGraphSurreal.Library.Answers
import ActiveGraphSurreal.Proofs.ForkFailures

/-!
# What becomes of a failure inside a transaction

`append`, `truncate_after` and `fork_prefix` turn some of the exceptions of their transactions
into `ConcurrentWriterError`. The server is arbitrary here: any state of the database, with any
calls that fail and whatever else goes on.
-/

namespace ActiveGraphSurreal

open Library

set_option linter.unusedSectionVars false

variable {F X : Type} [Json.ScalarText F] {env : Env F X} {ℓ α β σ : Type}

/-! ### What is assumed -/

variable (env) in
/-- The encoder raises exceptions of its own. -/
def EncoderErrors : Prop :=
  ∀ value e, env.encodePayload value = .error e → e.cls ≠ .concurrentWriterError

/-- A call fails with an error of the client library. -/
def SdkErrors (serve : Server Call Answer σ) : Prop :=
  ∀ c s s' e, serve c s (failed e c) s' → e.cls.IsSdk

def EventStore.Owns (store : EventStore) (row : RunRow) : Prop :=
  row.scope = store.scope ∧ row.runId = store.runId

/-- The answers that a handle has from its run record. -/
def ReadsRun (store : EventStore) (h : List (CallRec Call Answer σ)) (r : Option RunRow) : Prop :=
  Answered h (.query (.selectRun store.runRecord)) (.ok r) ∨
    Answered h (.txQuery (.selectRun store.runRecord)) (.ok r)

/-- The answers that come before the transaction is withdrawn. -/
def beforeCancel : List (CallRec Call Answer σ) → List (CallRec Call Answer σ)
  | [] => []
  | ⟨.cancel, _, _, _⟩ :: _ => []
  | rec :: h => rec :: beforeCancel h

/-- The answers that come after that. -/
def afterCancel : List (CallRec Call Answer σ) → List (CallRec Call Answer σ)
  | [] => []
  | ⟨.cancel, _, _, _⟩ :: h => h
  | _ :: h => afterCancel h

/-- The handle finds this in its run record until the end of its transaction: nobody else has
written it. -/
def Steady (store : EventStore) (record : Option RunRow) (h : List (CallRec Call Answer σ)) :
    Prop :=
  ∀ r, ReadsRun store (beforeCancel h) r → r = record

/-! ### Calls outside a transaction -/

def Outer : Call → Prop
  | .query _ | .begin => True
  | _ => False

/-- Only calls outside the transaction, and no `ConcurrentWriterError`. -/
def Calm (h : List (CallRec Call Answer σ)) (x : Except PyErr α) : Prop :=
  (∀ rec ∈ h, Outer rec.call) ∧ ∀ e, x = .error e → e.cls ≠ .concurrentWriterError

section tame

variable {serve : Server Call Answer σ}

/-- The method is calm, whatever the local state. -/
def Tame (serve : Server Call Answer σ) (m : Py ℓ α) : Prop :=
  ∀ l, Method.Meets serve m l fun h x _ => Calm h x

lemma sdk_ne {e : PyErr} (h : e.cls.IsSdk) : e.cls ≠ .concurrentWriterError := by
  intro hcls
  rw [hcls] at h
  exact h

lemma ledger_ne (text : String) :
    (⟨.ledgerIntegrityError, text⟩ : PyErr).cls ≠ .concurrentWriterError := by
  intro h
  cases h

lemma calm_nil {x : Except PyErr α} (h : ∀ e, x = .error e → e.cls ≠ .concurrentWriterError) :
    Calm ([] : List (CallRec Call Answer σ)) x :=
  ⟨fun _ hrec => absurd hrec (List.not_mem_nil), h⟩

lemma Calm.append {h₁ h₂ : List (CallRec Call Answer σ)} {x : Except PyErr α} {y : Except PyErr β}
    (hfirst : Calm h₁ x) (hsecond : Calm h₂ y) : Calm (h₁ ++ h₂) y := by
  refine ⟨fun rec hrec => ?_, hsecond.2⟩
  rcases List.mem_append.mp hrec with h | h
  · exact hfirst.1 rec h
  · exact hsecond.1 rec h

lemma tame_pure (a : α) : Tame serve (pure a : Py ℓ α) := by
  intro l
  apply Method.meets_pure
  apply calm_nil
  intro e he
  cases he

lemma tame_get : Tame serve (get : Py ℓ ℓ) := fun _ =>
  Method.meets_done rfl (calm_nil fun _ he => by cases he)

lemma tame_modify (f : ℓ → ℓ) : Tame serve (modify f : Py ℓ Unit) := fun _ =>
  Method.meets_done rfl (calm_nil fun _ he => by cases he)

lemma tame_throw {e : PyErr} (h : e.cls ≠ .concurrentWriterError) :
    Tame serve (throw e : Py ℓ α) := by
  intro l
  apply Method.meets_throw
  apply calm_nil
  intro e' he
  rw [← Except.error.inj he]
  exact h

lemma tame_lift {x : Except PyErr α} (h : ∀ e, x = .error e → e.cls ≠ .concurrentWriterError) :
    Tame serve (lift x : Py ℓ α) :=
  fun _ => Method.meets_lift (calm_nil h)

lemma tame_raiseIf {bad : Prop} [Decidable bad] {e : PyErr} (h : e.cls ≠ .concurrentWriterError) :
    Tame serve (lift (raiseIf bad e) : Py ℓ Unit) := by
  apply tame_lift
  intro e' he
  unfold raiseIf at he
  split at he
  · rw [← Except.error.inj he]
    exact h
  · cases he

lemma tame_query (hsdk : SdkErrors serve) (st : Stmt) : Tame serve (query st : Py ℓ st.Reply) := by
  intro l
  refine Method.meets_call rfl ?_
  intro r s s' hs
  refine ⟨fun rec hrec => ?_, fun e he => ?_⟩
  · rw [List.mem_singleton.mp hrec]
    trivial
  · subst he
    exact sdk_ne (hsdk (.query st) s s' e hs)

lemma Tame.bind {m : Py ℓ α} {f : α → Py ℓ β} (hm : Tame serve m)
    (hf : ∀ a, Tame serve (f a)) : Tame serve (m >>= f) := by
  intro l
  refine Method.meets_bind (hm l) ?_ ?_
  · intro h e l' hcalm
    refine ⟨hcalm.1, fun e' he' => ?_⟩
    rw [← Except.error.inj he']
    exact hcalm.2 e rfl
  · intro h₁ a l₁ hfirst
    exact (hf a l₁).mono fun h₂ x l' hsecond => hfirst.append hsecond

lemma Tame.tryCatch {m : Py ℓ α} {f : PyErr → Py ℓ α} (hm : Tame serve m)
    (hf : ∀ e, e.cls ≠ .concurrentWriterError → Tame serve (f e)) :
    Tame serve (tryCatch m f : Py ℓ α) := by
  intro l
  refine Method.meets_tryCatch (hm l) ?_ ?_
  · intro h a l' hcalm
    exact hcalm
  · intro h₁ e l₁ hfirst
    exact (hf e (hfirst.2 e rfl) l₁).mono fun h₂ x l' hsecond => hfirst.append hsecond

lemma Tame.tryElse {m : Py ℓ α} {f : PyErr → Py ℓ β} {g : α → Py ℓ β} (hm : Tame serve m)
    (hf : ∀ e, e.cls ≠ .concurrentWriterError → Tame serve (f e)) (hg : ∀ a, Tame serve (g a)) :
    Tame serve (Method.tryElse m f g) := by
  intro l
  refine Method.meets_tryElse (hm l) ?_ ?_
  · intro h₁ e l₁ hfirst
    exact (hf e (hfirst.2 e rfl) l₁).mono fun h₂ x l' hsecond => hfirst.append hsecond
  · intro h₁ a l₁ hfirst
    exact (hg a l₁).mono fun h₂ x l' hsecond => hfirst.append hsecond

/-! ### The constructor of a child -/

lemma assertSchemaVersion_cls {supported : Int} {row : SchemaRow} {e : PyErr}
    (h : assertSchemaVersion supported row = .error e) : e.cls ≠ .concurrentWriterError := by
  rcases bind_eq_error.mp h with hnewer | ⟨_, -, holder⟩
  · rw [← (raiseIf_eq_error.mp hnewer).2]
    exact ledger_ne _
  · rw [← (raiseIf_eq_error.mp holder).2]
    exact ledger_ne _

lemma tame_defineAll (hsdk : SdkErrors serve) (statements : List Ddl) :
    Tame serve (defineAll statements : Py ℓ Unit) := by
  induction statements with
  | nil => exact tame_pure ()
  | cons statement statements ih => exact (tame_query hsdk _).bind fun _ => ih

lemma tame_ensureSchema (hsdk : SdkErrors serve) (supported : Int) :
    Tame serve (ensureSchema supported false : Py ℓ Int) := by
  have hassert (row : SchemaRow) : Tame serve (lift (assertSchemaVersion supported row) : Py ℓ Unit) :=
    tame_lift fun _ => assertSchemaVersion_cls
  have hselect : Tame serve (selectExistingSchema : Py ℓ (Option SchemaRow)) := by
    refine (tame_query hsdk .selectSchema).tryCatch fun e he => ?_
    split
    · exact tame_pure none
    · exact tame_throw he
  have hinstalled : Tame serve (installedSchema supported : Py ℓ (Option SchemaRow)) := by
    refine (tame_query hsdk .selectSchema).bind fun current => ?_
    cases current with
    | some row => exact tame_pure (some row)
    | none =>
      refine Tame.tryElse ?_ ?_ fun _ => tame_query hsdk .selectSchema
      · exact (tame_query hsdk .timeNow).bind fun installedAt => tame_query hsdk _
      · intro e he
        exact (tame_query hsdk .selectSchema).bind fun current =>
          (tame_raiseIf he).bind fun _ => tame_pure current
  have hupgrade (row : SchemaRow) : Tame serve (upgradeSchema supported row : Py ℓ Int) := by
    refine (hassert row).bind fun _ => ?_
    split
    · exact (tame_query hsdk _).bind fun _ => tame_pure supported
    · exact tame_pure supported
  have hrest (next : Option SchemaRow → Py ℓ Int) (hnone : Tame serve (next none))
      (hsome : ∀ row, Tame serve (next (some row))) :
      Tame serve (defineAll schemaStatements >>= fun _ => installedSchema supported >>= next) := by
    refine (tame_defineAll hsdk _).bind fun _ => hinstalled.bind fun current => ?_
    cases current with
    | none => exact hnone
    | some row => exact hsome row
  refine hselect.bind fun existing => ?_
  cases existing with
  | none => exact hrest _ (tame_throw (by decide)) hupgrade
  | some row => exact (hassert row).bind fun _ => hrest _ (tame_throw (by decide)) hupgrade

lemma loads_cls {text : String} {e : PyErr} (h : (loads env text : Except PyErr (Json F)) = .error e) :
    e.cls ≠ .concurrentWriterError := by
  unfold loads at h
  split at h
  · cases h
  · rw [← Except.error.inj h]
    intro hcls
    cases hcls

lemma canonicalJson_cls (hencoder : EncoderErrors env) {value : PyValue F X} {e : PyErr}
    (h : canonicalJson env value = .error e) : e.cls ≠ .concurrentWriterError := by
  rcases bind_eq_error.mp h with hencode | ⟨text, -, h⟩
  · exact hencoder value e hencode
  · rcases bind_eq_error.mp h with hload | ⟨adapted, -, hdone⟩
    · exact loads_cls hload
    · cases hdone

lemma eventToRecord_cls (hencoder : EncoderErrors env) {event : Event F X} {e : PyErr}
    (h : eventToRecord env event = .error e) : e.cls ≠ .concurrentWriterError := by
  rcases bind_eq_error.mp h with hpayload | ⟨text, -, hdone⟩
  · exact canonicalJson_cls hencoder hpayload
  · cases hdone

lemma recordToEvent_cls {record : EventRecord} {e : PyErr}
    (h : (recordToEvent env record : Except PyErr (Event F X)) = .error e) :
    e.cls ≠ .concurrentWriterError := by
  rcases bind_eq_error.mp h with hpayload | ⟨payload, -, hdone⟩
  · exact loads_cls hpayload
  · cases hdone

lemma eventHash_cls (hencoder : EncoderErrors env) {scope runId : String} {seq : Int}
    {event : Event F X} {previousHash : Option String} {e : PyErr}
    (h : eventHash env scope runId seq event previousHash = .error e) :
    e.cls ≠ .concurrentWriterError := by
  rcases bind_eq_error.mp h with hpreimage | ⟨text, -, hdone⟩
  · exact canonicalJson_cls hencoder hpreimage
  · cases hdone

lemma verifyRows_cls (hencoder : EncoderErrors env) {scope runId : String} {n : Nat}
    {previousHash : Option String} {rows : List EventRow} {e : PyErr}
    (h : EventStore.verifyRows env scope runId n previousHash rows = .error e) :
    e.cls ≠ .concurrentWriterError := by
  induction rows generalizing n previousHash with
  | nil => cases h
  | cons row rows ih =>
    rcases bind_eq_error.mp h with hscope | ⟨_, -, h⟩
    · rw [← (raiseIf_eq_error.mp hscope).2]
      exact ledger_ne _
    rcases bind_eq_error.mp h with hseq | ⟨_, -, h⟩
    · rw [← (raiseIf_eq_error.mp hseq).2]
      exact ledger_ne _
    rcases bind_eq_error.mp h with hprevious | ⟨_, -, h⟩
    · rw [← (raiseIf_eq_error.mp hprevious).2]
      exact ledger_ne _
    rcases bind_eq_error.mp h with hevent | ⟨event, -, h⟩
    · exact recordToEvent_cls hevent
    rcases bind_eq_error.mp h with hhash | ⟨calculated, -, h⟩
    · exact eventHash_cls hencoder hhash
    rcases bind_eq_error.mp h with hfailed | ⟨_, -, h⟩
    · rw [← (raiseIf_eq_error.mp hfailed).2]
      exact ledger_ne _
    · exact ih h

lemma verify_cls (hencoder : EncoderErrors env) {scope runId : String} {rows : List EventRow}
    {run : Option RunRow} {e : PyErr} (h : EventStore.verify env scope runId rows run = .error e) :
    e.cls ≠ .concurrentWriterError := by
  cases run with
  | none =>
    rw [← Except.error.inj h]
    exact ledger_ne _
  | some run =>
    rcases bind_eq_error.mp h with hrows | ⟨previousHash, -, h⟩
    · exact verifyRows_cls hencoder hrows
    rcases bind_eq_error.mp h with hcount | ⟨_, -, h⟩
    · rw [← (raiseIf_eq_error.mp hcount).2]
      exact ledger_ne _
    rcases bind_eq_error.mp h with hhead | ⟨_, -, h⟩
    · rw [← (raiseIf_eq_error.mp hhead).2]
      exact ledger_ne _
    · cases h

lemma childEvents_cls (hencoder : EncoderErrors env) {scope newRunId : String} {n : Nat}
    {previousHash : Option String} {events : List (Event F X)} {e : PyErr}
    (h : EventStore.childEvents env scope newRunId n previousHash events = .error e) :
    e.cls ≠ .concurrentWriterError := by
  induction events generalizing n previousHash with
  | nil => cases h
  | cons event events ih =>
    rcases bind_eq_error.mp h with hhash | ⟨currentHash, -, h⟩
    · exact eventHash_cls hencoder hhash
    rcases bind_eq_error.mp h with hrecord | ⟨record, -, h⟩
    · rw [recordId_error hrecord]
      intro hcls
      cases hcls
    rcases bind_eq_error.mp h with hencode | ⟨encoded, -, h⟩
    · exact eventToRecord_cls hencoder hencode
    rcases bind_eq_error.mp h with hrest | ⟨rest, -, h⟩
    · exact ih hrest
    · cases h

end tame

/-! ### The steps before a transaction -/

section handle

variable {serve : Server Call Answer σ} {store : EventStore} {record : Option RunRow}
  {h h₁ h₂ : List (CallRec Call Answer σ)}

lemma beforeCancel_append (hcalls : ∀ rec ∈ h₁, rec.call ≠ .cancel) :
    beforeCancel (h₁ ++ h₂) = h₁ ++ beforeCancel h₂ := by
  induction h₁ with
  | nil => rfl
  | cons rec h₁ ih =>
    have hrest := ih fun rec' hrec' => hcalls rec' (List.mem_cons_of_mem _ hrec')
    have hfirst := hcalls rec (List.mem_cons_self ..)
    rcases rec with ⟨_ | _ | _ | _ | _, s, r, s'⟩
    · exact congrArg (List.cons _) hrest
    · exact congrArg (List.cons _) hrest
    · exact absurd rfl hfirst
    · exact congrArg (List.cons _) hrest
    · exact congrArg (List.cons _) hrest

lemma afterCancel_append (hcalls : ∀ rec ∈ h₁, rec.call ≠ .cancel) :
    afterCancel (h₁ ++ h₂) = afterCancel h₂ := by
  induction h₁ with
  | nil => rfl
  | cons rec h₁ ih =>
    have hrest := ih fun rec' hrec' => hcalls rec' (List.mem_cons_of_mem _ hrec')
    have hfirst := hcalls rec (List.mem_cons_self ..)
    rcases rec with ⟨_ | _ | _ | _ | _, s, r, s'⟩
    · exact hrest
    · exact hrest
    · exact absurd rfl hfirst
    · exact hrest
    · exact hrest

lemma beforeCancel_extends (h₁ h₂ : List (CallRec Call Answer σ)) :
    ∃ h', beforeCancel (h₁ ++ h₂) = beforeCancel h₁ ++ h' := by
  induction h₁ with
  | nil => exact ⟨_, rfl⟩
  | cons rec h₁ ih =>
    obtain ⟨h', hih⟩ := ih
    rcases rec with ⟨_ | _ | _ | _ | _, s, r, s'⟩
    · exact ⟨h', congrArg (List.cons _) hih⟩
    · exact ⟨h', congrArg (List.cons _) hih⟩
    · exact ⟨[], rfl⟩
    · exact ⟨h', congrArg (List.cons _) hih⟩
    · exact ⟨h', congrArg (List.cons _) hih⟩

lemma mem_of_beforeCancel {rec : CallRec Call Answer σ} (hrec : rec ∈ beforeCancel h) :
    rec ∈ h := by
  induction h with
  | nil => exact hrec
  | cons first h ih =>
    have hcons (hmem : rec ∈ first :: beforeCancel h) : rec ∈ first :: h :=
      List.mem_cons.mpr ((List.mem_cons.mp hmem).imp_right ih)
    rcases first with ⟨_ | _ | _ | _ | _, s, r, s'⟩
    · exact hcons hrec
    · exact hcons hrec
    · cases hrec
    · exact hcons hrec
    · exact hcons hrec

lemma readsRun_append {r : Option RunRow} :
    ReadsRun store (h₁ ++ h₂) r ↔ ReadsRun store h₁ r ∨ ReadsRun store h₂ r := by
  unfold ReadsRun
  rw [answered_append, answered_append]
  exact or_or_or_comm

lemma Steady.left (hsteady : Steady store record (h₁ ++ h₂)) : Steady store record h₁ := by
  intro r hr
  obtain ⟨h', hcut⟩ := beforeCancel_extends h₁ h₂
  apply hsteady r
  rw [hcut, readsRun_append]
  exact .inl hr

lemma Steady.right (hsteady : Steady store record (h₁ ++ h₂))
    (hcalls : ∀ rec ∈ h₁, rec.call ≠ .cancel) : Steady store record h₂ := by
  intro r hr
  apply hsteady r
  rw [beforeCancel_append hcalls, readsRun_append]
  exact .inr hr

lemma outer_ne_cancel (hcalls : ∀ rec ∈ h, Outer rec.call) : ∀ rec ∈ h, rec.call ≠ .cancel := by
  intro rec hrec hcall
  have houter := hcalls rec hrec
  rw [hcall] at houter
  exact houter

/-- The step is calm, leaves the handle alone and returns something with `R`, provided that the
run record holds `record`. -/
def Passes (serve : Server Call Answer σ) (store : EventStore) (record : Option RunRow)
    (n : Py EventStore α) (R : α → Prop) : Prop :=
  Method.Meets serve n store fun h x l' =>
    Steady store record h → l' = store ∧ Calm h x ∧ ∀ a, x = .ok a → R a

lemma Passes.bind {n : Py EventStore α} {R : α → Prop} {f : α → Py EventStore β} {R' : β → Prop}
    (hn : Passes serve store record n R) (hf : ∀ a, R a → Passes serve store record (f a) R') :
    Passes serve store record (n >>= f) R' := by
  refine Method.meets_bind hn ?_ ?_
  · intro h e l' hfirst hsteady
    obtain ⟨hl, hcalm, -⟩ := hfirst hsteady
    refine ⟨hl, ⟨hcalm.1, fun e' he' => ?_⟩, fun b hb => (by cases hb)⟩
    rw [← Except.error.inj he']
    exact hcalm.2 e rfl
  · intro h₁ a l₁ hfirst s h₂ x l' s' hrest hsteady
    obtain ⟨hl, hcalm, hR⟩ := hfirst hsteady.left
    subst hl
    obtain ⟨hl', hcalm', hR'⟩ :=
      hf a (hR a rfl) s h₂ x l' s' hrest (hsteady.right (outer_ne_cancel hcalm.1))
    exact ⟨hl', hcalm.append hcalm', hR'⟩

lemma passes_lift {x : Except PyErr α} {R : α → Prop}
    (hcls : ∀ e, x = .error e → e.cls ≠ .concurrentWriterError) (hR : ∀ a, x = .ok a → R a) :
    Passes serve store record (lift x) R :=
  Method.meets_lift fun _ => ⟨rfl, calm_nil hcls, hR⟩

lemma passes_raiseIf {bad : Prop} [Decidable bad] {e : PyErr} (h : e.cls ≠ .concurrentWriterError) :
    Passes serve store record (lift (raiseIf bad e)) fun _ => ¬ bad := by
  apply passes_lift
  · intro e' he'
    rw [← (raiseIf_eq_error.mp he').2]
    exact h
  · intro u hu
    exact raiseIf_eq_ok.mp hu

lemma passes_get : Passes serve store record get fun self => self = store := by
  refine Method.meets_done rfl fun _ => ⟨rfl, calm_nil fun e he => (by cases he), fun a ha => ?_⟩
  exact (Except.ok.inj ha).symm

lemma passes_query (hsdk : SdkErrors serve) (st : Stmt) {R : st.Reply → Prop}
    (hR : ∀ (s : σ) r s', Steady store record [⟨.query st, s, .ok r, s'⟩] → R r) :
    Passes serve store record (query st) R := by
  refine Method.meets_call rfl fun r s s' hs hsteady => ⟨rfl, ⟨fun rec hrec => ?_, ?_⟩, ?_⟩
  · rw [List.mem_singleton.mp hrec]
    trivial
  · intro e he
    subst he
    exact sdk_ne (hsdk (.query st) s s' e hs)
  · intro a ha
    subst ha
    exact hR s a s' hsteady

lemma passes_begin (hsdk : SdkErrors serve) :
    Passes serve store record beginTransaction fun _ => True := by
  refine Method.meets_call rfl fun r s s' hs _ => ⟨rfl, ⟨fun rec hrec => ?_, ?_⟩, fun _ _ => trivial⟩
  · rw [List.mem_singleton.mp hrec]
    trivial
  · intro e he
    subst he
    exact sdk_ne (hsdk .begin s s' e hs)

lemma passes_ensureOpen : Passes serve store record EventStore.ensureOpen fun _ => True := by
  refine passes_get.bind fun self _ => passes_lift ?_ fun _ _ => trivial
  intro e he
  rw [← (raiseIf_eq_error.mp he).2]
  intro hcls
  cases hcls

/-- The handle reads its run record by one query. -/
lemma meets_readRunRow (hsdk : SdkErrors serve) :
    Method.Meets serve EventStore.readRunRow store fun h x l' =>
      l' = store ∧ (∀ rec ∈ h, rec.call = .query (.selectRun store.runRecord)) ∧
        (∀ e, x = .error e → e.cls ≠ .concurrentWriterError) ∧
        (∀ run, x = .ok run → Answered h (.query (.selectRun store.runRecord)) (.ok run) ∧
          ∀ row ∈ run, store.Owns row) ∧
        ∀ row, Answered h (.query (.selectRun store.runRecord)) (.ok (some row)) →
          store.Owns row → x = .ok (some row) := by
  intro s h x l' s' he
  obtain ⟨r, s₁, h₁, hs, rfl, hk⟩ := Prog.exec_call_iff.mp he
  have hend : ∀ y, Prog.Exec serve (.done (y, store)) s₁ h₁ (x, l') s' →
      l' = store ∧ x = y ∧ h₁ = [] := by
    intro y hdone
    obtain ⟨rfl, hpair, -⟩ := Prog.exec_done_iff.mp hdone
    obtain ⟨rfl, rfl⟩ := Prod.mk.inj hpair
    exact ⟨rfl, rfl, rfl⟩
  have hcalls : ∀ rec ∈ [(⟨.query (.selectRun store.runRecord), s, r, s₁⟩ :
      CallRec Call Answer σ)], rec.call = .query (.selectRun store.runRecord) := by
    intro rec hrec
    rw [List.mem_singleton.mp hrec]
  cases r with
  | error e =>
    obtain ⟨rfl, rfl, rfl⟩ := hend _ hk
    refine ⟨rfl, hcalls, fun e' he' => ?_, fun run hrun => (by cases hrun), fun row hrow => ?_⟩
    · rw [← Except.error.inj he']
      exact sdk_ne (hsdk _ s s₁ e hs)
    · cases answered_self.mp hrow
  | ok found =>
    cases found with
    | none =>
      obtain ⟨rfl, rfl, rfl⟩ := hend _ hk
      refine ⟨rfl, hcalls, fun e' he' => (by cases he'), fun run hrun => ?_, fun row hrow => ?_⟩
      · rw [← Except.ok.inj hrun]
        exact ⟨answered_self.mpr rfl, fun row hrow => absurd hrow (Option.not_mem_none row)⟩
      · cases answered_self.mp hrow
    | some row =>
      have hcheck : Prog.Exec serve ((lift (raiseIf (row.scope ≠ store.scope ∨ row.runId ≠ store.runId)
          ⟨.ledgerIntegrityError, "the canonical run record has mismatched scope"⟩) >>=
          fun _ => pure (some row) : Py EventStore (Option RunRow)) store) s₁ h₁ (x, l') s' := hk
      by_cases howns : store.Owns row
      · rw [raiseIf, if_neg (by simp [howns.1, howns.2])] at hcheck
        obtain ⟨rfl, rfl, rfl⟩ := hend _ hcheck
        refine ⟨rfl, hcalls, fun e' he' => (by cases he'), fun run hrun => ?_, fun row' hrow' _ => ?_⟩
        · rw [← Except.ok.inj hrun]
          refine ⟨answered_self.mpr rfl, fun row' hrow' => ?_⟩
          rw [← Option.mem_some_iff.mp hrow']
          exact howns
        · exact (answered_self.mp hrow').symm
      · have hbad : row.scope ≠ store.scope ∨ row.runId ≠ store.runId := not_and_or.mp howns
        rw [raiseIf, if_pos hbad] at hcheck
        obtain ⟨rfl, rfl, rfl⟩ := hend _ hcheck
        refine ⟨rfl, hcalls, fun e' he' => ?_, fun run hrun => (by cases hrun),
          fun row' hrow' howns' => ?_⟩
        · rw [← Except.error.inj he']
          exact ledger_ne _
        · rw [Option.some.inj (Except.ok.inj (answered_self.mp hrow'))] at howns'
          exact absurd howns' howns

lemma passes_readRunRow (hsdk : SdkErrors serve) :
    Passes serve store record EventStore.readRunRow fun run =>
      run = record ∧ ∀ row ∈ run, store.Owns row := by
  refine (meets_readRunRow hsdk).mono ?_
  intro h x l' hread hsteady
  obtain ⟨hl, hcalls, herror, hok, -⟩ := hread
  have houter : ∀ rec ∈ h, Outer rec.call := by
    intro rec hrec
    rw [hcalls rec hrec]
    trivial
  refine ⟨hl, ⟨houter, herror⟩, fun run hrun => ⟨?_, (hok run hrun).2⟩⟩
  apply hsteady
  rw [← List.append_nil h, beforeCancel_append (outer_ne_cancel houter), readsRun_append]
  exact .inl (.inl (hok run hrun).1)

lemma passes_verifiedRowsAndRun (hsdk : SdkErrors serve) (hencoder : EncoderErrors env) :
    Passes serve store record (EventStore.verifiedRowsAndRun env) fun p =>
      record = some p.2 ∧ store.Owns p.2 ∧ p.2.nextSeq = p.1.length := by
  refine passes_get.bind fun self hself => passes_ensureOpen.bind fun _ _ => ?_
  subst hself
  refine (passes_query hsdk (R := fun _ => True) _ fun _ _ _ _ => trivial).bind fun rows _ => ?_
  refine (passes_readRunRow hsdk).bind fun run hrun => passes_lift ?_ ?_
  · intro e he
    exact verify_cls hencoder he
  · rintro ⟨rows', row⟩ hok
    obtain ⟨rfl, rfl, hnext, -⟩ := verify_ok_iff.mp hok
    exact ⟨hrun.1.symm, hrun.2 row (Option.mem_some_self row), hnext⟩

/-! ### Inside a transaction -/

def Inner : Call → Prop
  | .txQuery _ | .commit => True
  | _ => False

lemma inner_ne_cancel (hcalls : ∀ rec ∈ h, Inner rec.call) : ∀ rec ∈ h, rec.call ≠ .cancel := by
  intro rec hrec hcall
  have hinner := hcalls rec hrec
  rw [hcall] at hinner
  exact hinner

def misScoped : PyErr :=
  ⟨.ledgerIntegrityError, "the transactional run record is mis-scoped"⟩

variable (env) in
/-- What can go wrong between the database and the transaction: a call of it fails, or it finds
no run record, or the one of another run. -/
inductive Trouble (store : EventStore) (h : List (CallRec Call Answer σ)) : PyErr → Prop
  | query {st e} : Answered h (.txQuery st) (.error e) → Trouble store h e
  | commit {e} : Answered h .commit (.error e) → Trouble store h e
  | missing : Answered h (.txQuery (.selectRun store.runRecord)) (.ok none) →
      Trouble store h (EventStore.runMissing env store.runId)
  | misScoped {row} : Answered h (.txQuery (.selectRun store.runRecord)) (.ok (some row)) →
      ¬ store.Owns row → Trouble store h misScoped

lemma trouble_append {e : PyErr} :
    Trouble env store (h₁ ++ h₂) e ↔ Trouble env store h₁ e ∨ Trouble env store h₂ e := by
  constructor
  · rintro (hfailed | hfailed | hnone | ⟨hrow, howns⟩)
    · exact (answered_append.mp hfailed).imp .query .query
    · exact (answered_append.mp hfailed).imp .commit .commit
    · exact (answered_append.mp hnone).imp .missing .missing
    · exact (answered_append.mp hrow).imp (.misScoped · howns) (.misScoped · howns)
  · rintro ((hfailed | hfailed | hnone | ⟨hrow, howns⟩) | (hfailed | hfailed | hnone | ⟨hrow, howns⟩))
    · exact .query (answered_append.mpr (.inl hfailed))
    · exact .commit (answered_append.mpr (.inl hfailed))
    · exact .missing (answered_append.mpr (.inl hnone))
    · exact .misScoped (answered_append.mpr (.inl hrow)) howns
    · exact .query (answered_append.mpr (.inr hfailed))
    · exact .commit (answered_append.mpr (.inr hfailed))
    · exact .missing (answered_append.mpr (.inr hnone))
    · exact .misScoped (answered_append.mpr (.inr hrow)) howns

/-- Troubles are failures of the client library, or inconsistencies. -/
lemma trouble_cls (hsdk : SdkErrors serve)
    (hserved : ∀ rec ∈ h, serve rec.call rec.before rec.answer rec.after) {e : PyErr}
    (htrouble : Trouble env store h e) : e.cls.IsSdk ∨ e.cls = .ledgerIntegrityError := by
  rcases htrouble with ⟨s, s', hrec⟩ | ⟨s, s', hrec⟩ | - | -
  · exact .inl (hsdk _ s s' e (hserved _ hrec))
  · exact .inl (hsdk _ s s' e (hserved _ hrec))
  · exact .inr rfl
  · exact .inr rfl

/-- Calls outside a transaction are no part of its troubles. -/
lemma not_trouble {e : PyErr} (h : List (CallRec Call Answer σ))
    (hcalls : ∀ rec ∈ h, (∀ st, rec.call ≠ .txQuery st) ∧ rec.call ≠ .commit) :
    ¬ Trouble env store h e := by
  rintro (⟨s, s', hrec⟩ | ⟨s, s', hrec⟩ | ⟨s, s', hrec⟩ | ⟨⟨s, s', hrec⟩, -⟩)
  · exact (hcalls _ hrec).1 _ rfl
  · exact (hcalls _ hrec).2 rfl
  · exact (hcalls _ hrec).1 _ rfl
  · exact (hcalls _ hrec).1 _ rfl

lemma not_trouble_calm {e : PyErr} {x : Except PyErr α} (hcalm : Calm h x) :
    ¬ Trouble env store h e := by
  apply not_trouble
  intro rec hrec
  have houter := hcalm.1 rec hrec
  refine ⟨fun st hcall => ?_, fun hcall => ?_⟩
  · rw [hcall] at houter
    exact houter
  · rw [hcall] at houter
    exact houter

/-- The step makes only transactional calls. Its troubles are what it raises, and what else it
raises is harmless. -/
structure InsideOf (env : Env F X) (store : EventStore) (harmless : PyErr → Prop) (R : α → Prop)
    (h : List (CallRec Call Answer σ)) (x : Except PyErr α) (l' : EventStore) : Prop where
  kept : l' = store
  calls : ∀ rec ∈ h, Inner rec.call
  raised : ∀ e, Trouble env store h e → x = .error e
  harmless : ∀ e, x = .error e → Trouble env store h e ∨ harmless e
  returned : ∀ a, x = .ok a → R a

variable (env) in
def Inside (serve : Server Call Answer σ) (store : EventStore) (record : Option RunRow)
    (harmless : PyErr → Prop) (m : Py EventStore α) (R : α → Prop) : Prop :=
  Method.Meets serve m store fun h x l' =>
    Steady store record h → InsideOf env store harmless R h x l'

variable {harmless : PyErr → Prop}

lemma Inside.bind {m : Py EventStore α} {R : α → Prop} {f : α → Py EventStore β} {R' : β → Prop}
    (hm : Inside env serve store record harmless m R)
    (hf : ∀ a, R a → Inside env serve store record harmless (f a) R') :
    Inside env serve store record harmless (m >>= f) R' := by
  refine Method.meets_bind hm ?_ ?_
  · intro h e l' hfirst hsteady
    obtain ⟨hl, hcalls, hraised, hharmless, -⟩ := hfirst hsteady
    refine ⟨hl, hcalls, fun e' he' => ?_, fun e' he' => ?_, fun b hb => (by cases hb)⟩
    · rw [← Except.error.inj (hraised e' he')]
    · rw [← Except.error.inj he']
      exact hharmless e rfl
  · intro h₁ a l₁ hfirst s h₂ x l' s' hrest hsteady
    obtain ⟨hl, hcalls, hraised, -, hR⟩ := hfirst hsteady.left
    subst hl
    obtain ⟨hl', hcalls', hraised', hharmless', hR'⟩ :=
      hf a (hR a rfl) s h₂ x l' s' hrest (hsteady.right (inner_ne_cancel hcalls))
    refine ⟨hl', fun rec hrec => ?_, fun e he => ?_, fun e he => ?_, hR'⟩
    · rcases List.mem_append.mp hrec with hrec | hrec
      · exact hcalls rec hrec
      · exact hcalls' rec hrec
    · rcases trouble_append.mp he with htrouble | htrouble
      · cases hraised e htrouble
      · exact hraised' e htrouble
    · rcases hharmless' e he with htrouble | hfine
      · exact .inl (trouble_append.mpr (.inr htrouble))
      · exact .inr hfine

lemma inside_lift {x : Except PyErr α} {R : α → Prop} (hx : ∀ e, x = .error e → harmless e)
    (hR : ∀ a, x = .ok a → R a) : Inside env serve store record harmless (lift x) R := by
  refine Method.meets_lift fun _ => ⟨rfl, ?_, ?_, fun e he => .inr (hx e he), hR⟩
  · intro rec hrec
    cases hrec
  · intro e he
    exact absurd he (not_trouble [] fun rec hrec => by cases hrec)

lemma inside_raiseIf {bad : Prop} [Decidable bad] {e : PyErr} (h : bad → harmless e) :
    Inside env serve store record harmless (lift (raiseIf bad e)) fun _ => ¬ bad := by
  apply inside_lift
  · intro e' he'
    obtain ⟨hbad, rfl⟩ := raiseIf_eq_error.mp he'
    exact h hbad
  · intro u hu
    exact raiseIf_eq_ok.mp hu

lemma inside_pure {a : α} {R : α → Prop} (h : R a) :
    Inside env serve store record harmless (pure a) R :=
  inside_lift (x := .ok a) (fun _ he => by cases he) fun b hb => by
    rw [← Except.ok.inj hb]
    exact h

lemma inside_get : Inside env serve store record harmless get fun self => self = store := by
  refine Method.meets_done rfl fun _ => ⟨rfl, ?_, ?_, fun e he => (by cases he), fun a ha => ?_⟩
  · intro rec hrec
    cases hrec
  · intro e he
    exact absurd he (not_trouble [] fun rec hrec => by cases hrec)
  · exact (Except.ok.inj ha).symm

lemma inside_txQuery (st : Stmt) {R : st.Reply → Prop}
    (hst : ∀ record, st = .selectRun record → record ≠ store.runRecord) (hR : ∀ r, R r) :
    Inside env serve store record harmless (txQuery st) R := by
  refine Method.meets_call rfl fun r s s' hs _ => ⟨rfl, ?_, ?_, fun e he => ?_, fun a _ => hR a⟩
  · intro rec hrec
    rw [List.mem_singleton.mp hrec]
    trivial
  · rintro e (hfailed | hfailed | hnone | ⟨hrow, howns⟩)
    · obtain ⟨s₁, s₂, hrec⟩ := answered_singleton.mp hfailed
      cases hrec
      rfl
    · obtain ⟨s₁, s₂, hrec⟩ := answered_singleton.mp hfailed
      cases hrec
    · obtain ⟨s₁, s₂, hrec⟩ := answered_singleton.mp hnone
      cases hrec
      exact absurd rfl (hst _ rfl)
    · obtain ⟨s₁, s₂, hrec⟩ := answered_singleton.mp hrow
      cases hrec
      exact absurd rfl (hst _ rfl)
  · subst he
    exact .inl (.query ⟨s, s', List.mem_singleton_self _⟩)

lemma inside_commit : Inside env serve store record harmless commit fun _ => True := by
  refine Method.meets_call rfl fun r s s' hs _ => ⟨rfl, ?_, ?_, fun e he => ?_, fun _ _ => trivial⟩
  · intro rec hrec
    rw [List.mem_singleton.mp hrec]
    trivial
  · rintro e (hfailed | hfailed | hnone | ⟨hrow, howns⟩)
    · obtain ⟨s₁, s₂, hrec⟩ := answered_singleton.mp hfailed
      cases hrec
    · obtain ⟨s₁, s₂, hrec⟩ := answered_singleton.mp hfailed
      cases hrec
      rfl
    · obtain ⟨s₁, s₂, hrec⟩ := answered_singleton.mp hnone
      cases hrec
    · obtain ⟨s₁, s₂, hrec⟩ := answered_singleton.mp hrow
      cases hrec
  · subst he
    exact .inl (.commit ⟨s, s', List.mem_singleton_self _⟩)

/-- The troubles of reading the run record. -/
lemma trouble_selectRun {s s' : σ} {r : Except PyErr (Option RunRow)} {e : PyErr} :
    Trouble env store [(⟨.txQuery (.selectRun store.runRecord), s, r, s'⟩ :
        CallRec Call Answer σ)] e ↔
      r = .error e ∨ (r = .ok none ∧ e = EventStore.runMissing env store.runId) ∨
        ∃ row, r = .ok (some row) ∧ ¬ store.Owns row ∧ e = misScoped := by
  constructor
  · rintro (hfailed | hfailed | hnone | ⟨hrow, howns⟩)
    · obtain ⟨s₁, s₂, hrec⟩ := answered_singleton.mp hfailed
      cases hrec
      exact .inl rfl
    · obtain ⟨s₁, s₂, hrec⟩ := answered_singleton.mp hfailed
      cases hrec
    · obtain ⟨s₁, s₂, hrec⟩ := answered_singleton.mp hnone
      cases hrec
      exact .inr (.inl ⟨rfl, rfl⟩)
    · obtain ⟨s₁, s₂, hrec⟩ := answered_singleton.mp hrow
      cases hrec
      exact .inr (.inr ⟨_, rfl, howns, rfl⟩)
  · rintro (rfl | ⟨rfl, rfl⟩ | ⟨row, rfl, howns, rfl⟩)
    · exact .query ⟨s, s', List.mem_singleton_self _⟩
    · exact .missing ⟨s, s', List.mem_singleton_self _⟩
    · exact .misScoped ⟨s, s', List.mem_singleton_self _⟩ howns

lemma inside_transactionRunRow :
    Inside env serve store record harmless (EventStore.transactionRunRow env) fun row =>
      record = some row ∧ store.Owns row := by
  intro s h x l' s' he hsteady
  obtain ⟨r, s₁, h₁, hs, rfl, hk⟩ := Prog.exec_call_iff.mp he
  have hcalls : ∀ rec ∈ [(⟨.txQuery (.selectRun store.runRecord), s, r, s₁⟩ :
      CallRec Call Answer σ)], Inner rec.call := by
    intro rec hrec
    rw [List.mem_singleton.mp hrec]
    trivial
  -- one call, and then the end of the step
  have hend : ∀ y, Prog.Exec serve (.done (y, store)) s₁ h₁ (x, l') s' →
      (∀ e, Trouble env store [(⟨.txQuery (.selectRun store.runRecord), s, r, s₁⟩ :
        CallRec Call Answer σ)] e ↔ y = .error e) →
      (∀ row, y = .ok row → record = some row ∧ store.Owns row) →
      InsideOf env store harmless (fun row => record = some row ∧ store.Owns row)
        (⟨.txQuery (.selectRun store.runRecord), s, r, s₁⟩ :: h₁) x l' := by
    intro y hdone htrouble hreturned
    obtain ⟨rfl, hpair, -⟩ := Prog.exec_done_iff.mp hdone
    obtain ⟨rfl, rfl⟩ := Prod.mk.inj hpair
    exact ⟨rfl, hcalls, fun e he => (htrouble e).mp he, fun e he => .inl ((htrouble e).mpr he),
      hreturned⟩
  cases r with
  | error e =>
    refine hend _ hk (fun e' => ?_) fun row hrow => (by cases hrow)
    rw [trouble_selectRun]
    constructor
    · rintro (heq | ⟨heq, -⟩ | ⟨row, heq, -⟩)
      · rw [Except.error.inj heq]
      · cases heq
      · cases heq
    · intro heq
      rw [Except.error.inj heq]
      exact .inl rfl
  | ok found =>
    cases found with
    | none =>
      refine hend _ hk (fun e' => ?_) fun row hrow => (by cases hrow)
      rw [trouble_selectRun]
      constructor
      · rintro (heq | ⟨-, rfl⟩ | ⟨row, heq, -⟩)
        · cases heq
        · rfl
        · cases heq
      · intro heq
        exact .inr (.inl ⟨rfl, (Except.error.inj heq).symm⟩)
    | some row =>
      have hrecord : some row = record :=
        hsteady _ (.inr ⟨s, s₁, List.mem_cons_self ..⟩)
      have hcheck : Prog.Exec serve ((lift (raiseIf (row.scope ≠ store.scope ∨ row.runId ≠ store.runId)
          misScoped) >>= fun _ => pure row : Py EventStore RunRow) store) s₁ h₁ (x, l') s' := hk
      by_cases howns : store.Owns row
      · rw [raiseIf, if_neg (by simp [howns.1, howns.2])] at hcheck
        refine hend _ hcheck (fun e' => ?_) fun row' hrow' => ?_
        · rw [trouble_selectRun]
          constructor
          · rintro (heq | ⟨heq, -⟩ | ⟨row', heq, hbad, -⟩)
            · cases heq
            · cases heq
            · rw [← Option.some.inj (Except.ok.inj heq)] at hbad
              exact absurd howns hbad
          · intro heq
            cases heq
        · rw [← Except.ok.inj hrow']
          exact ⟨hrecord.symm, howns⟩
      · have hbad : row.scope ≠ store.scope ∨ row.runId ≠ store.runId := not_and_or.mp howns
        rw [raiseIf, if_pos hbad] at hcheck
        refine hend _ hcheck (fun e' => ?_) fun row' hrow' => (by cases hrow')
        rw [trouble_selectRun]
        constructor
        · rintro (heq | ⟨heq, -⟩ | ⟨row', -, -, rfl⟩)
          · cases heq
          · cases heq
          · rfl
        · intro heq
          exact .inr (.inr ⟨row, rfl, howns, (Except.error.inj heq).symm⟩)

/-! ### The three transactions -/

/-- An exception that the `except` branch passes on whatever the database says. -/
def PassedOn (passed : List ErrClass) (e : PyErr) : Prop :=
  e.cls ≠ .concurrentWriterError ∧ (e.cls ∈ passed ∨ hasConflictWord e.text = false)

/-- No other writer has committed to the run since the handle observed its head. -/
def Observed (store : EventStore) (record : Option RunRow) : Prop :=
  ∀ row ∈ record, store.Owns row → store.expects row

lemma inside_assertExpectedHead (hobserved : Observed store record) {head : RunRow}
    (hhead : record = some head ∧ store.Owns head) :
    Inside env serve store record harmless (EventStore.assertExpectedHead env head) fun _ => True := by
  refine inside_get.bind fun self hself => ?_
  subst hself
  have hexpects : self.expects head := by
    apply hobserved head
    · rw [hhead.1]
      exact Option.mem_some_self head
    · exact hhead.2
  refine inside_lift (fun e he => ?_) fun _ _ => trivial
  exact absurd hexpects (raiseIf_eq_error.mp he).1

lemma inside_eventRecord {passed : List ErrClass} (eventId : String) :
    Inside env serve store record (PassedOn passed) (EventStore.eventRecord env eventId)
      fun _ => True := by
  refine inside_get.bind fun self hself => inside_lift (fun e he => ?_) fun _ _ => trivial
  rw [recordId_error he]
  exact ⟨by decide, .inr (by decide)⟩

lemma eventHash_ok (henc : EncodesJson env) (hdict : EncodesDict env) {event : Event F X}
    {encoded : EventRecord} (h : eventToRecord env event = .ok encoded) (scope runId : String)
    (seq : Int) (previousHash : Option String) :
    ∃ hash, eventHash env scope runId seq event previousHash = .ok hash := by
  obtain ⟨e, hnormal, -⟩ := eventToRecord_ok_iff.mp h
  obtain ⟨j, hadapt, -⟩ := hnormal.payload
  obtain ⟨k, hk, -⟩ := adapt_preimage henc hdict hadapt scope runId seq previousHash
  refine ⟨env.sha256 (utf8 (dumps k)), ?_⟩
  unfold eventHash
  rw [canonicalJson_eq, hk]
  rfl

lemma inside_appendTransaction (henc : EncodesJson env) (hdict : EncodesDict env)
    (hobserved : Observed store record) {event : Event F X} {encoded : EventRecord}
    (hencoded : eventToRecord env event = .ok encoded) :
    Inside env serve store record (PassedOn [.duplicateEventError, .concurrentWriterError])
      (EventStore.appendTransaction env event encoded) fun _ => True := by
  refine inside_get.bind fun self hself => ?_
  subst hself
  refine inside_transactionRunRow.bind fun head hhead => ?_
  refine (inside_assertExpectedHead hobserved hhead).bind fun _ _ => ?_
  refine (inside_eventRecord event.id).bind fun eventRecord _ => ?_
  refine (inside_txQuery (R := fun _ => True) (.selectEvent eventRecord)
    (fun _ heq => by cases heq) fun _ => trivial).bind fun existing _ => ?_
  refine (inside_raiseIf fun _ => ?_).bind fun _ _ => ?_
  · exact ⟨fun hcls => (by cases hcls), .inl (List.mem_cons_self ..)⟩
  obtain ⟨hash, hhash⟩ := eventHash_ok henc hdict hencoded self.scope self.runId head.nextSeq
    head.headHash
  refine (inside_lift (R := fun _ => True) (fun e he => ?_) fun _ _ => trivial).bind
    fun currentHash _ => ?_
  · rw [hhash] at he
    cases he
  refine (inside_txQuery (R := fun _ => True) (.createEvent _ _)
    (fun _ heq => by cases heq) fun _ => trivial).bind fun _ _ => ?_
  refine (inside_txQuery (R := fun _ => True) (.mergeHead _ _ _)
    (fun _ heq => by cases heq) fun _ => trivial).bind fun _ _ => ?_
  exact inside_commit.bind fun _ _ => inside_pure trivial

lemma inside_truncateTransaction (hobserved : Observed store record) (eventId : String) :
    Inside env serve store record (PassedOn [.eventNotFoundError, .concurrentWriterError])
      (EventStore.truncateTransaction env eventId) fun _ => True := by
  refine inside_get.bind fun self hself => ?_
  subst hself
  refine inside_transactionRunRow.bind fun head hhead => ?_
  refine (inside_assertExpectedHead hobserved hhead).bind fun _ _ => ?_
  refine (inside_eventRecord eventId).bind fun eventRecord _ => ?_
  refine (inside_txQuery (R := fun _ => True) (.selectEvent eventRecord)
    (fun _ heq => by cases heq) fun _ => trivial).bind fun cutoff _ => ?_
  cases cutoff with
  | none =>
    refine inside_lift (x := .error _) (fun e he => ?_) fun _ he => (by cases he)
    rw [← Except.error.inj he]
    exact ⟨fun hcls => (by cases hcls), .inl (List.mem_cons_self ..)⟩
  | some cutoff =>
    have hcrossed : Inside env serve self record
        (PassedOn [.eventNotFoundError, .concurrentWriterError])
        (EventStore.assertRowScope cutoff) fun _ => True := by
      refine inside_get.bind fun self' _ => inside_lift (fun e he => ?_) fun _ _ => trivial
      rw [← (raiseIf_eq_error.mp he).2]
      exact ⟨by decide, .inr (by decide)⟩
    refine hcrossed.bind fun _ _ => ?_
    refine (inside_txQuery (R := fun _ => True) (.deleteEventsAfter _ _ _)
      (fun _ heq => by cases heq) fun _ => trivial).bind fun _ _ => ?_
    refine (inside_txQuery (R := fun _ => True) (.mergeHead _ _ _)
      (fun _ heq => by cases heq) fun _ => trivial).bind fun _ _ => ?_
    exact inside_commit.bind fun _ _ => inside_pure trivial

lemma inside_createEvents (rows : List (RecordId .agEvent × EventRow)) :
    Inside env serve store record harmless (EventStore.createEvents rows) fun _ => True := by
  induction rows with
  | nil => exact inside_pure trivial
  | cons row rows ih =>
    exact (inside_txQuery (R := fun _ => True) (.createEvent _ _)
      (fun _ heq => by cases heq) fun _ => trivial).bind fun _ _ => ih

lemma inside_forkTransaction {newRunId : String} {rows : List EventRow} {parentRow child : RunRow}
    {childRecord : RecordId .agRun} {events : List (RecordId .agEvent × EventRow)}
    (hparent : record = some parentRow) (hnext : parentRow.nextSeq = rows.length)
    (hother : childRecord ≠ store.runRecord) :
    Inside env serve store record (fun e => e.cls = .runAlreadyExistsError)
      (EventStore.forkTransaction env newRunId rows parentRow child childRecord events)
      fun _ => True := by
  refine inside_get.bind fun self hself => ?_
  subst hself
  refine inside_transactionRunRow.bind fun currentParent hcurrent => ?_
  have hsame : currentParent = parentRow := Option.some.inj (hcurrent.1.symm.trans hparent)
  subst hsame
  refine (inside_raiseIf fun hchanged => ?_).bind fun _ _ => ?_
  · rcases hchanged with h | h
    · exact absurd hnext h
    · exact absurd rfl h
  refine (inside_txQuery (R := fun _ => True) (.selectRun childRecord) (fun record heq => ?_)
    fun _ => trivial).bind fun existing _ => ?_
  · rw [← Stmt.selectRun.inj heq]
    exact hother
  refine Inside.bind (inside_raiseIf fun _ => rfl) fun _ _ => ?_
  refine (inside_txQuery (R := fun _ => True) (.mergeHead _ _ _)
    (fun _ heq => by cases heq) fun _ => trivial).bind fun _ _ => ?_
  refine (inside_txQuery (R := fun _ => True) (.createRun _ _)
    (fun _ heq => by cases heq) fun _ => trivial).bind fun _ _ => ?_
  exact (inside_createEvents events).bind fun _ _ => inside_commit

/-! ### The `except` branches -/

/-- No call of an `except` branch belongs to the transaction. -/
lemma not_trouble_withdrawn {s s' : σ} {r : Except PyErr Unit}
    (hqueries : ∀ rec ∈ h, ∃ st, rec.call = .query st) (e : PyErr) :
    ¬ Trouble env store ((⟨.cancel, s, r, s'⟩ : CallRec Call Answer σ) :: h) e := by
  apply not_trouble
  intro rec hrec
  rcases List.mem_cons.mp hrec with heq | hrest
  · rw [heq]
    exact ⟨fun st hcall => (by cases hcall), fun hcall => by cases hcall⟩
  · obtain ⟨st, hcall⟩ := hqueries rec hrest
    rw [hcall]
    exact ⟨fun st hcall => (by cases hcall), fun hcall => by cases hcall⟩

lemma meets_cancelSafely : Method.Meets serve cancelSafely store fun h x l' =>
    l' = store ∧ x = .ok () ∧ ∃ s r s', h = [⟨.cancel, s, r, s'⟩] :=
  Method.meets_call (k := fun _ => .ok ()) rfl fun r s s' _ => ⟨rfl, rfl, s, r, s', rfl⟩

variable (env) in
def conflicted (store : EventStore) : PyErr := ⟨.concurrentWriterError,
  "run " ++ env.repr store.runId ++ " changed during a transactional write"⟩

/-- The handle looks at its run record and finds a head that it does not expect. -/
def Changed (store : EventStore) (h : List (CallRec Call Answer σ)) : Prop :=
  ∃ row, Answered h (.query (.selectRun store.runRecord)) (.ok (some row)) ∧ store.Owns row ∧
    ¬ store.expects row

lemma meets_lookForChange (hsdk : SdkErrors serve) :
    Method.Meets serve (tryCatch EventStore.readRunRow fun _ => pure none) store fun h x l' =>
      l' = store ∧ (∀ rec ∈ h, rec.call = .query (.selectRun store.runRecord)) ∧
        ∃ current, x = .ok current ∧ ((current.any fun row => ¬ store.expects row) = true ↔
          Changed store h) := by
  refine Method.meets_tryCatch (meets_readRunRow hsdk) ?_ ?_
  · rintro h current l' ⟨hl, hcalls, -, hok, hfound⟩
    obtain ⟨hanswered, howns⟩ := hok current rfl
    refine ⟨hl, hcalls, current, rfl, ?_⟩
    rw [Option.any_eq_true]
    constructor
    · rintro ⟨row, hrow, hbad⟩
      rw [hrow] at hanswered
      exact ⟨row, hanswered, howns row hrow, of_decide_eq_true hbad⟩
    · rintro ⟨row, hrow, hown, hbad⟩
      exact ⟨row, Except.ok.inj (hfound row hrow hown), decide_eq_true hbad⟩
  · rintro h₁ e l₁ ⟨rfl, hcalls, -, -, hfound⟩
    apply Method.meets_pure
    rw [List.append_nil]
    refine ⟨rfl, hcalls, none, rfl, ?_⟩
    constructor
    · intro hnone
      cases hnone
    · rintro ⟨row, hrow, hown, -⟩
      cases hfound row hrow hown

lemma meets_raiseIfConcurrent (hsdk : SdkErrors serve) (exc : PyErr) :
    Method.Meets serve (EventStore.raiseIfConcurrent env exc) store fun h x l' =>
      l' = store ∧ (∀ rec ∈ h, rec.call = .query (.selectRun store.runRecord)) ∧
        (Changed store h ∨ hasConflictWord exc.text = true → x = .error (conflicted env store)) ∧
        (¬ (Changed store h ∨ hasConflictWord exc.text = true) → x = .ok ()) := by
  refine Method.meets_bind (M := fun h x l' => h = [] ∧ x = .ok store ∧ l' = store)
    (Method.meets_done rfl ⟨rfl, rfl, rfl⟩) ?_ ?_
  · rintro h e l' ⟨-, he, -⟩
    cases he
  · rintro h₁ self l₁ ⟨hh₁, hself, hl₁⟩
    cases hself
    subst hh₁ hl₁
    refine Method.meets_bind (meets_lookForChange hsdk) ?_ ?_
    · rintro h e l' ⟨-, -, current, hcurrent, -⟩
      cases hcurrent
    · rintro h₁ current l₂ ⟨hl₂, hcalls, current', hcurrent, hchanged⟩
      cases hcurrent
      apply Method.meets_lift
      rw [List.nil_append, List.append_nil, ← hchanged]
      exact ⟨hl₂, hcalls, fun hbad => if_pos hbad, fun hfine => if_neg hfine⟩

/-- What is raised after the look at the run record. -/
structure Reworded (env : Env F X) (store : EventStore) (exc : PyErr)
    (h : List (CallRec Call Answer σ)) (x : Except PyErr α) : Prop where
  calls : ∀ rec ∈ h, rec.call = .query (.selectRun store.runRecord)
  conflict : Changed store h ∨ hasConflictWord exc.text = true → x = .error (conflicted env store)
  original : ¬ (Changed store h ∨ hasConflictWord exc.text = true) → x = .error exc

lemma meets_reworded (hsdk : SdkErrors serve) (exc : PyErr) :
    Method.Meets serve (EventStore.raiseIfConcurrent env exc >>= fun _ => throw exc :
      Py EventStore α) store fun h x _ => Reworded env store exc h x := by
  refine Method.meets_bind (meets_raiseIfConcurrent hsdk exc) ?_ ?_
  · rintro h e l' ⟨-, hcalls, hconflict, hfine⟩
    refine ⟨hcalls, fun hbad => ?_, fun hgood => ?_⟩
    · rw [← Except.error.inj (hconflict hbad)]
    · cases hfine hgood
  · rintro h u l' ⟨-, hcalls, hconflict, -⟩
    apply Method.meets_throw
    rw [List.append_nil]
    refine ⟨hcalls, fun hbad => ?_, fun _ => rfl⟩
    cases hconflict hbad

/-- What the `except` branch of a write to the own run makes of an exception. -/
structure Abandons (env : Env F X) (store : EventStore) (passed : List ErrClass) (exc : PyErr)
    (h : List (CallRec Call Answer σ)) (x : Except PyErr α) : Prop where
  queries : ∀ rec ∈ h, ∃ st, rec.call = .query st
  raised : exc.cls ∈ passed → h = [] ∧ x = .error exc
  looked : exc.cls ∉ passed → Reworded env store exc h x

/-- A step that makes no call and raises nothing. -/
lemma meets_passed {m : Py EventStore α} {f : α → Py EventStore β} {a : α}
    {Q : List (CallRec Call Answer σ) → Except PyErr β → EventStore → Prop}
    (hm : m store = .done (.ok a, store)) (hf : Method.Meets serve (f a) store Q) :
    Method.Meets serve (m >>= f) store Q := by
  refine Method.meets_bind (M := fun h x l' => h = [] ∧ x = .ok a ∧ l' = store)
    (Method.meets_done hm ⟨rfl, rfl, rfl⟩) ?_ ?_
  · rintro h e l' ⟨-, he, -⟩
    cases he
  · rintro h₁ a' l₁ ⟨rfl, ha, rfl⟩
    cases ha
    exact hf

lemma meets_abandon (hsdk : SdkErrors serve) (passed : List ErrClass) (exc : PyErr) :
    Method.Meets serve (EventStore.abandon env passed exc) store fun h x _ =>
      ∃ s r s' rest, h = ⟨.cancel, s, r, s'⟩ :: rest ∧ Abandons env store passed exc rest x := by
  unfold EventStore.abandon
  refine Method.meets_bind meets_cancelSafely ?_ ?_
  · rintro h e l' ⟨-, he, -⟩
    cases he
  rintro h₁ u l₁ ⟨hl₁, -, s, r, s', hcancel⟩
  subst hl₁
  by_cases hpassed : exc.cls ∈ passed
  · rw [raiseIf, if_pos hpassed]
    refine Method.meets_done rfl ⟨s, r, s', [], ?_, ?_⟩
    · rw [List.append_nil, hcancel]
    · exact ⟨fun rec hrec => (by cases hrec), fun _ => ⟨rfl, rfl⟩, fun h => absurd hpassed h⟩
  · rw [raiseIf, if_neg hpassed]
    refine meets_passed rfl ((meets_reworded hsdk exc).mono ?_)
    intro rest x l' hreworded
    rw [hcancel]
    refine ⟨s, r, s', rest, rfl, fun rec hrec => ?_, fun h => absurd h hpassed, fun _ => hreworded⟩
    exact ⟨_, hreworded.calls rec hrec⟩

lemma meets_destinationExists {newRunId : String} {ck : RecordId .agRun}
    (hkey : runKey env (store.scope, newRunId) = .ok ck) :
    Method.Meets serve (EventStore.destinationExists env newRunId) store fun h x l' =>
      l' = store ∧ ∃ s a s', h = [⟨.query (.selectRun ck), s, a, s'⟩] ∧
        x = Except.map Option.isSome a := by
  intro s h x l' s' he
  have hrecord : recordId env.sha256 .agRun [store.scope, newRunId] = .ok ck := hkey
  have hquery : Prog.Exec serve ((query (.selectRun ck) >>= fun row => pure row.isSome :
      Py EventStore Bool) store) s h (x, l') s' := by
    have hsame : EventStore.destinationExists env newRunId store =
        (query (.selectRun ck) >>= fun row => pure row.isSome : Py EventStore Bool) store := by
      unfold EventStore.destinationExists
      change ((lift (recordId env.sha256 .agRun [store.scope, newRunId]) : Py EventStore _) >>= _)
        store = _
      rw [hrecord]
      rfl
    rw [← hsame]
    exact he
  obtain ⟨a, s₁, h₁, hs, rfl, hk⟩ := Prog.exec_call_iff.mp hquery
  cases a with
  | error e =>
    obtain ⟨rfl, hend, -⟩ := Prog.exec_done_iff.mp hk
    obtain ⟨rfl, rfl⟩ := Prod.mk.inj hend
    exact ⟨rfl, s, .error e, s₁, rfl, rfl⟩
  | ok row =>
    obtain ⟨rfl, hend, -⟩ := Prog.exec_done_iff.mp hk
    obtain ⟨rfl, rfl⟩ := Prod.mk.inj hend
    exact ⟨rfl, s, .ok row, s₁, rfl, rfl⟩

/-- What the `except` branch of a fork raises after its look at the destination. -/
def AfterLook (env : Env F X) (store : EventStore) (newRunId : String) (exc : PyErr)
    (h : List (CallRec Call Answer σ)) (x : Except PyErr EventStore) :
    Except PyErr (Option RunRow) → Prop
  | .error e => x = .error e
  | .ok (some _) => x = .error (EventStore.runExistsError env newRunId)
  | .ok none => (Changed store h ∨ hasConflictWord exc.text = true →
        x = .error (conflicted env store)) ∧
      (¬ (Changed store h ∨ hasConflictWord exc.text = true) → x = .error exc)

/-- The calls of a fork after its transaction has been withdrawn, and what they lead to. -/
structure AbandonsFork (env : Env F X) (store : EventStore) (newRunId : String)
    (ck : RecordId .agRun) (exc : PyErr) (h : List (CallRec Call Answer σ))
    (x : Except PyErr EventStore) : Prop where
  queries : ∀ rec ∈ h, ∃ st, rec.call = .query st
  raised : exc.cls = .concurrentWriterError ∨ exc.cls = .runAlreadyExistsError →
    h = [] ∧ x = .error exc
  looked : ¬ (exc.cls = .concurrentWriterError ∨ exc.cls = .runAlreadyExistsError) →
    ∃ a, (∀ a', Answered h (.query (.selectRun ck)) a' ↔ a' = a) ∧
      AfterLook env store newRunId exc h x a

lemma meets_abandonFork (hsdk : SdkErrors serve) {newRunId : String} {ck : RecordId .agRun}
    (hkey : runKey env (store.scope, newRunId) = .ok ck) (hother : ck ≠ store.runRecord)
    (exc : PyErr) :
    Method.Meets serve (EventStore.abandonFork env newRunId exc) store fun h x _ =>
      ∃ s r s' rest, h = ⟨.cancel, s, r, s'⟩ :: rest ∧
        AbandonsFork env store newRunId ck exc rest x := by
  unfold EventStore.abandonFork
  refine Method.meets_bind meets_cancelSafely ?_ ?_
  · rintro h e l' ⟨-, he, -⟩
    cases he
  rintro h₁ u l₁ ⟨hl₁, -, s, r, s', hcancel⟩
  subst hl₁
  by_cases hpassed : exc.cls = .concurrentWriterError ∨ exc.cls = .runAlreadyExistsError
  · rw [raiseIf, if_pos hpassed]
    refine Method.meets_done rfl ⟨s, r, s', [], ?_, ?_⟩
    · rw [List.append_nil, hcancel]
    · exact ⟨fun rec hrec => (by cases hrec), fun _ => ⟨rfl, rfl⟩, fun h => absurd hpassed h⟩
  rw [raiseIf, if_neg hpassed]
  have hsuffices : Method.Meets serve (do
      let taken ← EventStore.destinationExists env newRunId
      lift (raiseIf taken (EventStore.runExistsError env newRunId))
      EventStore.raiseIfConcurrent env exc
      throw exc : Py EventStore EventStore) l₁ fun rest x _ =>
        AbandonsFork env l₁ newRunId ck exc rest x := by
    have hone (s₁ : σ) (a : Except PyErr (Option RunRow)) (s₂ : σ) :
        ∀ rec ∈ [(⟨.query (.selectRun ck), s₁, a, s₂⟩ : CallRec Call Answer σ)],
          ∃ st, rec.call = .query st := by
      intro rec hrec
      rw [List.mem_singleton.mp hrec]
      exact ⟨_, rfl⟩
    refine Method.meets_bind (meets_destinationExists hkey) ?_ ?_
    · rintro h e l' ⟨-, s₁, a, s₂, rfl, hlook⟩
      cases a with
      | ok row => cases hlook
      | error e' =>
        obtain rfl := Except.error.inj hlook
        exact ⟨hone s₁ _ s₂, fun h => absurd h hpassed, fun _ => ⟨.error e, fun a' =>
          answered_self, rfl⟩⟩
    · rintro h₂ taken l₂ ⟨hl₂, s₁, a, s₂, rfl, hlook⟩
      subst hl₂
      cases a with
      | error e => cases hlook
      | ok row =>
        obtain rfl := Except.ok.inj hlook
        cases row with
        | some row =>
          refine Method.meets_done rfl ?_
          rw [List.append_nil]
          exact ⟨hone s₁ _ s₂, fun h => absurd h hpassed, fun _ => ⟨.ok (some row), fun a' =>
            answered_self, rfl⟩⟩
        | none =>
          refine meets_passed rfl ((meets_reworded hsdk exc).mono ?_)
          rintro h₃ x l' ⟨hcalls, hconflict, horiginal⟩
          -- the second look is at another record
          have hchanged : Changed l₂ ([⟨.query (.selectRun ck), s₁, .ok none, s₂⟩] ++ h₃) ↔
              Changed l₂ h₃ := by
            refine exists_congr fun row => and_congr_left fun _ => ?_
            rw [answered_append, or_iff_right]
            apply not_answered
            intro rec hrec hcall
            rw [List.mem_singleton.mp hrec] at hcall
            exact hother (Stmt.selectRun.inj (DbCall.query.inj hcall))
          refine ⟨fun rec hrec => ?_, fun h => absurd h hpassed,
            fun _ => ⟨.ok none, fun a' => ?_, ?_⟩⟩
          · rcases List.mem_append.mp hrec with hrec | hrec
            · exact hone s₁ _ s₂ rec hrec
            · exact ⟨_, hcalls rec hrec⟩
          · rw [answered_append, answered_self, or_iff_left]
            apply not_answered
            intro rec hrec hcall
            rw [hcalls rec hrec] at hcall
            exact hother (Stmt.selectRun.inj (DbCall.query.inj hcall)).symm
          · unfold AfterLook
            rw [hchanged]
            exact ⟨hconflict, horiginal⟩
  refine meets_passed rfl (hsuffices.mono ?_)
  intro rest x l' habandons
  rw [hcancel]
  exact ⟨s, r, s', rest, rfl, habandons⟩

end handle

/-! ### The same calls without conversions -/

/-- What a transaction has raised is raised. -/
def withdraw (exc : PyErr) : Py EventStore α := do
  cancelSafely
  throw exc

section comparison

variable (perform : (c : Call) → σ → Answer c × σ)

/-- What a call on a handle returns or raises. -/
def outcome (m : Py EventStore α) (store : EventStore) (s : σ) : Except PyErr α :=
  ((m store).run perform s).1.1

/-- The answered calls to the database that it has made. -/
def answers (m : Py EventStore α) (store : EventStore) (s : σ) :
    List (CallRec Call Answer σ) :=
  (m store).history perform s

/-- The call ends as it would without its conversions, and raises no `ConcurrentWriterError`. -/
structure Reports (m plain : Py EventStore α) (store : EventStore) (s : σ) : Prop where
  original : outcome perform m store s = outcome perform plain store s
  distinct : ∀ e, outcome perform m store s = .error e → e.cls ≠ .concurrentWriterError

variable (env) in
/-- Without conversions the call raises every trouble of its transaction, and with them it
reports it unless `converts` holds of its answers. -/
def Compares (converts : List (CallRec Call Answer σ) → Prop) (store : EventStore)
    (record : Option RunRow) (m plain : Py EventStore α) : Prop :=
  ∀ s, Steady store record (answers perform m store s) →
    (∀ e, Trouble env store (answers perform m store s) e → outcome perform plain store s = .error e) ∧
    (Reports perform m plain store s ↔ ¬ converts (answers perform m store s))

variable {perform} {converts : List (CallRec Call Answer σ) → Prop} {store : EventStore}
  {record : Option RunRow} {harmless : PyErr → Prop}

lemma compares_bind {n : Py EventStore α} {R : α → Prop} {f f' : α → Py EventStore β}
    (houter : ∀ h₀ h, (∀ rec ∈ h₀, Outer rec.call) → (converts (h₀ ++ h) ↔ converts h))
    (hnil : ¬ converts []) (hn : Passes (serving perform) store record n R)
    (hf : ∀ a, R a → Compares env perform converts store record (f a) (f' a)) :
    Compares env perform converts store record (n >>= f) (n >>= f') := by
  intro s hsteady
  have hexec := Prog.exec_serving perform (n store) s
  have hanswers : answers perform (n >>= f) store s = (n store).history perform s ++
      (Method.andThen f ((n store).run perform s).1).history perform
        ((n store).run perform s).2 := Prog.history_bind perform (n store) _ s
  have houtcome : ∀ g : α → Py EventStore β, outcome perform (n >>= g) store s =
      ((Method.andThen g ((n store).run perform s).1).run perform
        ((n store).run perform s).2).1.1 := by
    intro g
    unfold outcome
    change (((n store).bind (Method.andThen g)).run perform s).1.1 = _
    rw [Prog.run_bind]
  rcases hrun : (n store).run perform s with ⟨⟨x, l'⟩, s₁⟩
  simp only [hrun] at hexec hanswers houtcome
  rw [hanswers] at hsteady
  obtain ⟨rfl, hcalm, hR⟩ := hn _ _ _ _ _ hexec hsteady.left
  rw [hanswers, houter _ _ hcalm.1]
  cases x with
  | error e =>
    refine ⟨fun e' he' => ?_, ?_⟩
    · rcases trouble_append.mp he' with htrouble | htrouble
      · exact absurd htrouble (not_trouble_calm hcalm)
      · exact absurd htrouble (not_trouble _ fun rec hrec => by cases hrec)
    · refine iff_of_true ⟨?_, ?_⟩ hnil
      · rw [houtcome f, houtcome f']
        rfl
      · intro e' he'
        rw [houtcome f] at he'
        rw [← Except.error.inj he']
        exact hcalm.2 e rfl
  | ok a =>
    obtain ⟨htrouble, hreports⟩ := hf a (hR a rfl) s₁
      (hsteady.right (outer_ne_cancel hcalm.1))
    refine ⟨fun e he => ?_, ?_⟩
    · rw [houtcome f']
      rcases trouble_append.mp he with h | h
      · exact absurd h (not_trouble_calm hcalm)
      · exact htrouble e h
    · refine Iff.trans ⟨?_, ?_⟩ hreports
      · rintro ⟨horiginal, hdistinct⟩
        rw [houtcome f, houtcome f'] at horiginal
        rw [houtcome f] at hdistinct
        exact ⟨horiginal, hdistinct⟩
      · rintro ⟨horiginal, hdistinct⟩
        refine ⟨?_, ?_⟩
        · rw [houtcome f, houtcome f']
          exact horiginal
        · rw [houtcome f]
          exact hdistinct

lemma compares_throw {e : PyErr} (hnil : ¬ converts []) (h : e.cls ≠ .concurrentWriterError) :
    Compares env perform converts store record (throw e : Py EventStore α) (throw e) := by
  intro s hsteady
  refine ⟨fun e' he' => ?_, iff_of_true ⟨rfl, fun e' he' => ?_⟩ hnil⟩
  · exact absurd he' (not_trouble [] fun rec hrec => by cases hrec)
  · rw [← Except.error.inj he']
    exact h

/-- The `except` branch decides what becomes of an exception of the transaction. -/
lemma compares_tryElse {body : Py EventStore α} {onError : PyErr → Py EventStore β}
    {after : α → Py EventStore β} (hsdk : SdkErrors (serving perform))
    (hbody : Inside env (serving perform) store record harmless body fun _ => True)
    (hafter : ∀ a, Tame (serving perform) (after a))
    (hdone : ∀ h₁ h₂ : List (CallRec Call Answer σ), (∀ rec ∈ h₁, Inner rec.call) →
      (∀ e, ¬ Trouble env store h₁ e) → (∀ rec ∈ h₂, Outer rec.call) → ¬ converts (h₁ ++ h₂))
    (herror : ∀ h₁ exc s₁, InsideOf env store harmless (fun _ : α => True) h₁ (.error exc) store →
      (∀ e, Trouble env store h₁ e → e.cls.IsSdk ∨ e.cls = .ledgerIntegrityError) →
      (∀ e, ¬ Trouble env store (answers perform (onError exc) store s₁) e) ∧
      (Reports perform (onError exc) (throw exc) store s₁ ↔
        ¬ converts (h₁ ++ answers perform (onError exc) store s₁))) :
    Compares env perform converts store record (Method.tryElse body onError after)
      (Method.tryElse body withdraw after) := by
  intro s hsteady
  have hexec := Prog.exec_serving perform (body store) s
  have hanswers : answers perform (Method.tryElse body onError after) store s =
      (body store).history perform s ++
        (Method.branch onError after ((body store).run perform s).1).history perform
          ((body store).run perform s).2 := Prog.history_bind perform (body store) _ s
  have houtcome : ∀ g : PyErr → Py EventStore β,
      outcome perform (Method.tryElse body g after) store s =
        ((Method.branch g after ((body store).run perform s).1).run perform
          ((body store).run perform s).2).1.1 := by
    intro g
    unfold outcome Method.tryElse
    rw [Prog.run_bind]
  rcases hrun : (body store).run perform s with ⟨⟨x, l'⟩, s₁⟩
  simp only [hrun] at hexec hanswers houtcome
  rw [hanswers] at hsteady
  have hinside := hbody _ _ _ _ _ hexec hsteady.left
  obtain rfl : l' = store := hinside.kept
  rw [hanswers]
  cases x with
  | error exc =>
    have hcls : ∀ e, Trouble env l' ((body l').history perform s) e →
        e.cls.IsSdk ∨ e.cls = .ledgerIntegrityError := fun e =>
      trouble_cls hsdk fun rec hrec => hexec.served hrec
    obtain ⟨hnone, hreports⟩ := herror _ exc s₁ hinside hcls
    refine ⟨fun e he => ?_, Iff.trans ⟨?_, ?_⟩ hreports⟩
    · rw [houtcome withdraw]
      rcases trouble_append.mp he with h | h
      · rw [Except.error.inj (hinside.raised e h)]
        rfl
      · exact absurd h (hnone e)
    · rintro ⟨horiginal, hdistinct⟩
      rw [houtcome onError, houtcome withdraw] at horiginal
      rw [houtcome onError] at hdistinct
      exact ⟨horiginal, hdistinct⟩
    · rintro ⟨horiginal, hdistinct⟩
      refine ⟨?_, ?_⟩
      · rw [houtcome onError, houtcome withdraw]
        exact horiginal
      · rw [houtcome onError]
        exact hdistinct
  | ok a =>
    have hcalm := hafter a l' _ _ _ _ _ (Prog.exec_serving perform (after a l') s₁)
    have hnone : ∀ e, ¬ Trouble env l' ((body l').history perform s) e := by
      intro e he
      cases hinside.raised e he
    refine ⟨fun e he => ?_, iff_of_true ⟨?_, ?_⟩ (hdone _ _ hinside.calls hnone hcalm.1)⟩
    · rcases trouble_append.mp he with h | h
      · exact absurd h (hnone e)
      · exact absurd h (not_trouble_calm hcalm)
    · rw [houtcome onError, houtcome withdraw]
      rfl
    · rw [houtcome onError]
      exact hcalm.2

end comparison

end ActiveGraphSurreal
