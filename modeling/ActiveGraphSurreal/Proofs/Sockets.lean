import ActiveGraphSurreal.Library.Typestate
import ActiveGraphSurreal.Proofs.ReadOnly
import ActiveGraphSurreal.Proofs.Reference
import ActiveGraphSurreal.Sessions
import Mathlib.Algebra.Order.Group.Multiset

/-!
# Sockets belong to their owners

Whatever a server answers, a constructor that raises has closed the sockets that it has opened,
and a call is made on an open socket only. In any sequence of operations the open sockets are
those of the owners that are not closed.
-/

namespace ActiveGraphSurreal

open Library Method

set_option linter.unusedSectionVars false

variable {F X : Type} [Json.ScalarText F] {env : Env F X} {ℓ α β : Type}

/-! ### The open sockets -/

def SocketCall.socket : SocketCall → Option Nat
  | .connect => none
  | .signin n | .use n | .newSession n | .signinSession n | .useSession n | .session n _
  | .version n | .closeSession n | .close n => some n

/-- The typestate is the sockets that are open. A call is made on one of them. -/
def sockets : Typestate SocketCall SocketAnswer (Multiset Nat) where
  allows t c := ∀ n ∈ c.socket, n ∈ t
  next
    | t, .connect, .ok (n, _) => n ::ₘ t
    | t, .close n, _ => t.erase n
    | t, _, _ => t

variable {t : Multiset Nat} {l : ℓ} {Q : Multiset Nat → α → ℓ → Prop} {E : Multiset Nat → ℓ → Prop}

/-- From `t` the method ends in `Q`, or with the same sockets as at first if it raises. -/
abbrev Returns (Q : Multiset Nat → α → Prop) (t : Multiset Nat) (m : Soc ℓ α) (l : ℓ) : Prop :=
  Obeys sockets (fun t' a l' => Q t' a ∧ l' = l) (fun t' l' => t' = t ∧ l' = l) t m l

lemma obeys_ask {c : SocketCall} {answer : SocketAnswer c → Except PyErr α}
    (hc : ∀ n ∈ c.socket, n ∈ t) (hQ : ∀ r a, answer r = .ok a → Q (sockets.next t c r) a l)
    (hE : ∀ r e, answer r = .error e → E (sockets.next t c r) l) :
    Obeys sockets Q E t (ask c answer) l := by
  refine ⟨hc, fun r => ?_⟩
  change ends Q E (sockets.next t c r) (answer r, l)
  cases hr : answer r with
  | error e => exact hE r e hr
  | ok a => exact hQ r a hr

/-- The call opens and closes no socket. -/
def SocketCall.Stays : SocketCall → Prop
  | .connect | .close _ => False
  | _ => True

lemma next_stays {c : SocketCall} (hc : c.Stays) (r : SocketAnswer c) : sockets.next t c r = t := by
  cases c with
  | connect => exact hc.elim
  | close n => exact hc.elim
  | _ => rfl

lemma obeys_stays {c : SocketCall} {answer : SocketAnswer c → Except PyErr α} (hstays : c.Stays)
    (hc : ∀ n ∈ c.socket, n ∈ t) (hQ : ∀ a, Q t a l) (hE : E t l) :
    Obeys sockets Q E t (ask c answer) l := by
  refine obeys_ask hc (fun r a _ => ?_) fun r e _ => ?_
  · rw [next_stays hstays]
    exact hQ a
  · rw [next_stays hstays]
    exact hE

lemma obeys_close {n : Nat} {Q : Multiset Nat → Unit → ℓ → Prop} (hn : n ∈ t)
    (hQ : Q (t.erase n) () l) (hE : E (t.erase n) l) :
    Obeys sockets Q E t (ask (.close n) id) l := by
  refine obeys_ask ?_ (fun r a _ => hQ) fun r e _ => hE
  intro m hm
  rw [← Option.some.inj hm]
  exact hn

/-! ### Connections -/

lemma obeys_onFailure {m : Soc ℓ α} {cleanup : Soc ℓ Unit}
    (hm : Obeys sockets Q (fun t l => Obeys sockets (fun t _ l => E t l) E t cleanup l) t m l) :
    Obeys sockets Q E t (onFailure m cleanup) l := by
  refine obeys_tryElse (hm.mono (fun t a l h => obeys_pure h) fun t l h e => ?_)
  exact obeys_bind (h.mono (fun t _ l h => obeys_throw h) fun _ _ h => h)

lemma obeys_tryFinally {m : Soc ℓ α} {cleanup : Soc ℓ Unit}
    (hm : Obeys sockets (fun t a l => Obeys sockets (fun t _ l => Q t a l) E t cleanup l)
      (fun t l => Obeys sockets (fun t _ l => E t l) E t cleanup l) t m l) :
    Obeys sockets Q E t (tryFinally m cleanup) l := by
  refine obeys_tryElse (hm.mono (fun t a l h => ?_) fun t l h e => ?_)
  · exact obeys_bind (h.mono (fun t _ l h => obeys_pure h) fun _ _ h => h)
  · exact obeys_bind (h.mono (fun t _ l h => obeys_throw h) fun _ _ h => h)

/-- The constructor of a connection returns an open one, or closes what it has opened. -/
theorem returns_newConnection : Returns (fun t' c => t' = c.socket ::ₘ t ∧ c.closed = false) t
    Connection.new l := by
  refine obeys_bind (obeys_ask (by simp [SocketCall.socket]) ?_ ?_)
  · rintro r ⟨n, blocking⟩ rfl
    have hmem : n ∈ n ::ₘ t := Multiset.mem_cons_self n t
    have herase : (n ::ₘ t).erase n = t := Multiset.erase_cons_head n t
    change Obeys sockets _ _ (n ::ₘ t) _ l
    cases blocking with
    | false =>
      refine obeys_bind (obeys_close hmem (obeys_throw ⟨herase, rfl⟩) ⟨herase, rfl⟩)
    | true =>
      have hcleanup : Obeys sockets (fun t' _ l' => t' = t ∧ l' = l) (fun t' l' => t' = t ∧ l' = l)
          (n ::ₘ t) (ask (.close n) id) l := obeys_close hmem ⟨herase, rfl⟩ ⟨herase, rfl⟩
      have hstep : ∀ {c : SocketCall} {answer : SocketAnswer c → Except PyErr Unit}
          {Q : Multiset Nat → Unit → ℓ → Prop}, c.Stays → c.socket = some n → Q (n ::ₘ t) () l →
          Obeys sockets Q (fun t' l' => Obeys sockets (fun t' _ l' => t' = t ∧ l' = l)
            (fun t' l' => t' = t ∧ l' = l) t' (ask (.close n) id) l') (n ::ₘ t)
            (ask c answer) l := by
        intro c answer Q hstays hsocket hQ
        refine obeys_stays hstays ?_ (fun _ => hQ) hcleanup
        rw [hsocket]
        intro m hm
        rw [← Option.some.inj hm]
        exact hmem
      refine obeys_onFailure ?_
      refine obeys_bind (hstep trivial rfl (obeys_bind (hstep trivial rfl (obeys_bind
        (hstep trivial rfl (obeys_bind (hstep trivial rfl (obeys_bind (hstep trivial rfl ?_)))))))))
      exact obeys_pure ⟨⟨rfl, rfl⟩, rfl⟩
  · rintro r e rfl
    exact ⟨rfl, rfl⟩

/-- The sockets that are open after a connection is closed. -/
def Connection.leaves (c : Connection) (t : Multiset Nat) : Multiset Nat :=
  if c.closed then t else t.erase c.socket

lemma obeys_closeConnection {c : Connection} {Q : Multiset Nat → Unit → Connection → Prop}
    {E : Multiset Nat → Connection → Prop} (hc : c.closed = false → c.socket ∈ t)
    (hQ : ∀ c', c'.closed = true → Q (c.leaves t) () c')
    (hE : ∀ c', c'.closed = true → E (c.leaves t) c') :
    Obeys sockets Q E t Connection.close c := by
  obtain ⟨n, session, closed⟩ := c
  cases closed with
  | true => exact hQ _ rfl
  | false =>
    have hn : n ∈ t := hc rfl
    have hclose : Obeys sockets Q E t (ask (.close n) id) ⟨n, false, true⟩ :=
      obeys_close hn (hQ _ rfl) (hE _ rfl)
    have hfail : Obeys sockets (fun t _ l => E t l) E t (ask (.close n) id) ⟨n, false, true⟩ :=
      obeys_close hn (hE _ rfl) (hE _ rfl)
    change Obeys sockets Q E t (tryFinally (if session then ask (.closeSession n) id else pure ())
      (ask (.close n) id)) ⟨n, false, true⟩
    refine obeys_tryFinally ?_
    cases session with
    | false => exact obeys_pure hclose
    | true =>
      refine obeys_stays trivial ?_ (fun _ => hclose) hfail
      intro m hm
      rw [← Option.some.inj hm]
      exact hn

/-- The connection of an unfinished object is closed. -/
lemma obeys_closing {c : Connection} {Q : Multiset Nat → Unit → ℓ → Prop}
    (hc : c.closed = false → c.socket ∈ t) (hQ : Q (c.leaves t) () l) (hE : E (c.leaves t) l) :
    Obeys sockets Q E t (closing c) l := by
  apply Prog.keeps_bind_iff.mpr
  refine Prog.Keeps.mono ?_ (obeys_closeConnection (Q := fun t' _ _ => t' = c.leaves t)
    (E := fun t' _ => t' = c.leaves t) hc (fun _ _ => rfl) fun _ _ => rfl)
  rintro t' ⟨e | a, c'⟩ ht
  · obtain rfl : t' = _ := ht
    exact hE
  · obtain rfl : t' = _ := ht
    exact hQ

lemma obeys_closing_opened {c : Connection} (hc : c.closed = false)
    {Q : Multiset Nat → Unit → ℓ → Prop} (hQ : Q t () l) (hE : E t l) :
    Obeys sockets Q E (c.socket ::ₘ t) (closing c) l := by
  have hleaves : c.leaves (c.socket ::ₘ t) = t := by
    unfold Connection.leaves
    simp [hc]
  refine obeys_closing (fun _ => Multiset.mem_cons_self _ t) ?_ ?_
  · rwa [hleaves]
  · rwa [hleaves]

/-! ### Statements -/

/-- Every statement but the one that stands for a connection. -/
def Stmt.Later (st : Stmt) : Prop := st ≠ .connect

lemma keeps_onSession {n : Nat} (hn : n ∈ t) {K : Call → Prop} {P : α → Prop}
    {p : Prog Call Answer α} (hp : p.CallsTo K P) :
    (onSession n p).Keeps sockets (fun t' a => t' = t ∧ P a) t := by
  induction p with
  | done a => exact ⟨rfl, hp⟩
  | call c k ih =>
    refine ⟨fun m hm => ?_, fun r => ih r (hp.2 r)⟩
    rw [← Option.some.inj hm]
    exact hn

lemma callsTo_any (p : Prog Call Answer α) : p.CallsTo (fun _ => True) fun _ => True := by
  induction p with
  | done a => trivial
  | call c k ih => exact ⟨trivial, ih⟩

lemma obeys_statements {S : Type} {n : Nat} (hn : n ∈ t) {m : Py S α} {s : S}
    {P : Except PyErr α × S → Prop} {Q : Multiset Nat → α × S → ℓ → Prop}
    {K : Call → Prop} (hm : (m s).CallsTo K P) (hQ : ∀ a s', P (.ok a, s') → Q t (a, s') l)
    (hE : E t l) : Obeys sockets Q E t (statements n m s) l := by
  apply Prog.keeps_bind_iff.mpr
  refine Prog.Keeps.mono ?_ (keeps_onSession hn hm)
  rintro t' ⟨e | a, s'⟩ ⟨ht, hP⟩
  · obtain rfl : t' = t := ht
    exact hE
  · obtain rfl : t' = t := ht
    exact hQ a s' hP

/-- The method opens no connection and leaves a field as it is. -/
def StaysAs {V : Type} (f : ℓ → V) (m : Py ℓ α) : Prop :=
  ∀ l, (m l).CallsTo (· ≠ .query .connect) fun x => f x.2 = f l

section stays

variable {V : Type} {f : ℓ → V}

lemma Makes.staysAs {m : Py ℓ α} (hm : Makes Stmt.Later m) : StaysAs f m := by
  intro l
  refine (hm l).mono ?_ fun _ h => congrArg f h
  rintro c ⟨st, rfl, hst⟩ hconnect
  exact hst (DbCall.query.inj hconnect)

lemma StaysAs.bind {m : Py ℓ α} {g : α → Py ℓ β} (hm : StaysAs f m) (hg : ∀ a, StaysAs f (g a)) :
    StaysAs f (m >>= g) := by
  intro l
  apply Prog.callsTo_bind_iff.mpr
  refine (hm l).mono (fun _ h => h) ?_
  rintro ⟨e | a, l'⟩ hl
  · exact hl
  · exact (hg a l').mono (fun _ h => h) fun x hx => hx.trans hl

lemma staysAs_modify {g : ℓ → ℓ} (hg : ∀ l, f (g l) = f l) : StaysAs f (modify g : Py ℓ Unit) := hg

end stays

section makes

variable {P : Stmt → Prop}

lemma Makes.tryElse {m : Py ℓ α} {onError : PyErr → Py ℓ β} {onOk : α → Py ℓ β} (hm : Makes P m)
    (he : ∀ e, Makes P (onError e)) (ho : ∀ a, Makes P (onOk a)) :
    Makes P (Method.tryElse m onError onOk) := by
  intro l
  apply Prog.callsTo_bind_iff.mpr
  refine (hm l).mono (fun _ h => h) ?_
  rintro ⟨e | a, l'⟩ rfl
  · exact he e _
  · exact ho a _

lemma Makes.tryCatch {m : Py ℓ α} {f : PyErr → Py ℓ α} (hm : Makes P m)
    (hf : ∀ e, Makes P (f e)) : Makes P (MonadExcept.tryCatch m f) := by
  intro l
  apply Prog.callsTo_bind_iff.mpr
  refine (hm l).mono (fun _ h => h) ?_
  rintro ⟨e | a, l'⟩ rfl
  · exact hf e _
  · rfl

lemma makes_later {st : Stmt} (hst : st ≠ .connect) :
    Makes Stmt.Later (query st : Py ℓ st.Reply) := makes_query hst

lemma makes_installedSchema (supported : Int) :
    Makes Stmt.Later (installedSchema supported : Py ℓ (Option SchemaRow)) := by
  have hread : Makes Stmt.Later (query .selectSchema : Py ℓ (Option SchemaRow)) :=
    makes_later (by simp)
  refine hread.bind fun row => ?_
  cases row with
  | some current => exact makes_pure _
  | none =>
    refine Makes.tryElse ((makes_later (by simp)).bind fun _ => makes_later (by simp))
      (fun e => ?_) fun _ => hread
    exact hread.bind fun current => (makes_lift _).bind fun _ => makes_pure current

lemma makes_ensureSchema (supported : Int) (ready : Bool) :
    Makes Stmt.Later (ensureSchema supported ready : Py ℓ Int) := by
  have hdefine : ∀ statements : List Ddl, Makes Stmt.Later (defineAll statements : Py ℓ Unit) := by
    intro statements
    induction statements with
    | nil => exact makes_pure ()
    | cons statement statements ih => exact (makes_later (by simp)).bind fun _ => ih
  have hselect : Makes Stmt.Later (selectExistingSchema : Py ℓ (Option SchemaRow)) := by
    refine (makes_later (by simp)).tryCatch fun e => ?_
    split
    · exact makes_pure none
    · exact makes_throw e
  have hupgrade : ∀ current, Makes Stmt.Later (upgradeSchema supported current : Py ℓ Int) := by
    intro current
    refine (makes_lift _).bind fun _ => ?_
    split
    · exact (makes_later (by simp)).bind fun _ => makes_pure supported
    · exact makes_pure supported
  cases ready with
  | true => exact makes_pure supported
  | false =>
    refine hselect.bind fun existing => ?_
    cases existing with
    | none =>
      refine (hdefine _).bind fun _ => (makes_installedSchema supported).bind fun row => ?_
      cases row with
      | none => exact makes_throw _
      | some current => exact hupgrade current
    | some existing =>
      refine (makes_lift _).bind fun _ => (hdefine _).bind fun _ =>
        (makes_installedSchema supported).bind fun row => ?_
      cases row with
      | none => exact makes_throw _
      | some current => exact hupgrade current

end makes

lemma EventStore.staysAs_prepare (runId scope now : String) :
    StaysAs (·.closed) (EventStore.prepare env runId scope now) := by
  have hread : Makes Stmt.Later EventStore.readRunRow := by
    refine Makes.get fun self => (makes_later (by simp)).bind fun row => ?_
    cases row with
    | none => exact makes_pure none
    | some row => exact (makes_lift _).bind fun _ => makes_pure (some row)
  have hrun : Makes Stmt.Later (EventStore.ensureRun now) := by
    refine Makes.get fun self => hread.bind fun row => ?_
    cases row with
    | some row => exact makes_pure ()
    | none => exact (makes_later (by simp)).tryCatch fun e => hread.bind fun row => makes_lift _
  have hlater : ∀ st : Stmt, st.OnLog → st.Later := by
    rintro st hlog rfl
    exact hlog
  have hverify : Makes Stmt.Later (EventStore.verifyIntegrity env) :=
    (EventStore.makes_verifiedRowsAndRun.mono hlater).bind fun _ => makes_pure _
  refine (makes_ensureSchema _ _).staysAs.bind fun _ => ?_
  refine (makes_lift (P := Stmt.Later) _).staysAs.bind fun record => ?_
  refine StaysAs.bind ?_ fun _ => hrun.staysAs.bind fun _ => ?_
  · exact staysAs_modify fun _ => rfl
  · refine hverify.staysAs.bind fun report => ?_
    exact staysAs_modify fun _ => rfl

lemma GraphStore.staysAs_prepare (runId scope : String) :
    StaysAs (·.closed) (GraphStore.prepare env runId scope) := by
  have hread : Makes Stmt.Later GraphStore.projectionRow := by
    refine Makes.get fun self => (makes_later (by simp)).bind fun row => ?_
    cases row with
    | none => exact makes_pure none
    | some row =>
      have hscoped : Makes Stmt.Later (GraphStore.assertScopedRow row.scope row.runId none) :=
        Makes.get fun _ => (makes_lift _).bind fun _ => makes_lift _
      exact hscoped.bind fun _ => makes_pure (some row)
  have hrecord : Makes Stmt.Later GraphStore.ensureProjectionRecord := by
    refine Makes.get fun self => hread.bind fun row => ?_
    cases row with
    | some row => exact makes_pure ()
    | none => exact (makes_later (by simp)).tryCatch fun e => hread.bind fun row => makes_lift _
  refine (makes_ensureSchema _ _).staysAs.bind fun _ => ?_
  refine (makes_lift (P := Stmt.Later) _).staysAs.bind fun record => ?_
  refine StaysAs.bind ?_ fun _ => hrecord.staysAs
  exact staysAs_modify fun _ => rfl

/-! ### Stores -/

/-- A store and its connection that are both open or both closed. -/
def Connected.Agrees {S : Type} (closed : S → Bool) (c : Connected S) : Prop :=
  closed c.store = c.connection.closed

/-- The sockets of a connection that is not closed. -/
def Connection.open_ (c : Connection) : Multiset Nat := if c.closed then 0 else {c.socket}

lemma leaves_open {c : Connection} : c.leaves (c.open_ + t) = t := by
  unfold Connection.leaves Connection.open_
  cases c.closed with
  | true => simp
  | false => simp

lemma mem_open {c : Connection} (hc : c.closed = false) : c.socket ∈ c.open_ + t := by
  unfold Connection.open_
  simp [hc]

/-- What the constructors of stores have in common. -/
lemma returns_connect {S : Type} {closed : S → Bool} {s : S} {m : Py S Unit} (hs : closed s = false)
    (hm : StaysAs closed m) {bad bad' : Prop} [Decidable bad] [Decidable bad'] {e e' : PyErr} :
    Returns (fun t' h => t' = h.connection.open_ + t ∧ h.Agrees closed ∧ closed h.store = false) t
      (do
        Method.lift (raiseIf bad e)
        Method.lift (raiseIf bad' e')
        let connection ← Connection.new
        onFailure (do
          let (_, store) ← statements connection.socket m s
          return (⟨store, connection⟩ : Connected S)) (closing connection)) l := by
  refine obeys_bind (obeys_lift (fun _ _ => ?_) ⟨rfl, rfl⟩)
  refine obeys_bind (obeys_lift (fun _ _ => ?_) ⟨rfl, rfl⟩)
  refine obeys_bind (returns_newConnection.mono ?_ fun _ _ h => h)
  rintro t' c l' ⟨⟨rfl, hopen⟩, rfl⟩
  have hmem : c.socket ∈ c.socket ::ₘ t := Multiset.mem_cons_self _ t
  refine obeys_onFailure (obeys_bind (obeys_statements hmem (hm s) (fun a s' hs' => ?_) ?_))
  · have hclosed : closed s' = false := hs'.trans hs
    refine obeys_pure ⟨⟨?_, hclosed.trans hopen.symm, hclosed⟩, rfl⟩
    unfold Connection.open_
    simp [hopen]
  · exact obeys_closing_opened hopen ⟨rfl, rfl⟩ ⟨rfl, rfl⟩

/-- `close` of a store closes its socket, even when the closing of the session raises. -/
lemma obeys_disconnect {S : Type} {closed : S → Bool} {shut : S → S}
    (hshut : ∀ s, closed (shut s) = true) {c : Connected S} (hc : c.Agrees closed)
    {Q : Multiset Nat → Unit → Connected S → Prop} {E : Multiset Nat → Connected S → Prop}
    (hQ : ∀ c', c'.Agrees closed → c'.connection.closed = true → Q t () c')
    (hE : ∀ c', c'.Agrees closed → c'.connection.closed = true → E t c') :
    Obeys sockets Q E (c.connection.open_ + t) (disconnect closed shut) c := by
  unfold Connected.Agrees at hc
  unfold Obeys
  cases hclosed : closed c.store with
  | true =>
    have hrun : disconnect closed shut c = .done (.ok (), c) := if_pos hclosed
    have hstays : c.connection.open_ + t = t := by
      unfold Connection.open_
      simp [← hc, hclosed]
    rw [hrun, hstays]
    exact hQ c hc (hc.symm.trans hclosed)
  | false =>
    have hrun : disconnect closed shut c = (Connection.close c.connection).bind fun x =>
        .done (x.1, ⟨shut c.store, x.2⟩) := if_neg (by simp [hclosed])
    rw [hrun]
    apply Prog.keeps_bind_iff.mpr
    refine Prog.Keeps.mono ?_ (obeys_closeConnection
      (Q := fun t' _ c' => t' = t ∧ c'.closed = true) (E := fun t' c' => t' = t ∧ c'.closed = true)
      mem_open (fun c' hc' => ⟨leaves_open, hc'⟩) fun c' hc' => ⟨leaves_open, hc'⟩)
    rintro t' ⟨e | a, c'⟩ ⟨ht, hc'⟩
    · obtain rfl : t' = t := ht
      exact hE _ ((hshut _).trans hc'.symm) hc'
    · obtain rfl : t' = t := ht
      exact hQ _ ((hshut _).trans hc'.symm) hc'

lemma EventStore.obeys_disconnect {c : Connected EventStore} (hc : c.Agrees (·.closed))
    {Q : Multiset Nat → Unit → Connected EventStore → Prop}
    {E : Multiset Nat → Connected EventStore → Prop}
    (hQ : ∀ c', c'.Agrees (·.closed) → c'.connection.closed = true → Q t () c')
    (hE : ∀ c', c'.Agrees (·.closed) → c'.connection.closed = true → E t c') :
    Obeys sockets Q E (c.connection.open_ + t) EventStore.disconnect c :=
  ActiveGraphSurreal.obeys_disconnect (fun _ => rfl) hc hQ hE

lemma GraphStore.obeys_disconnect {c : Connected GraphStore} (hc : c.Agrees (·.closed))
    {Q : Multiset Nat → Unit → Connected GraphStore → Prop}
    {E : Multiset Nat → Connected GraphStore → Prop}
    (hQ : ∀ c', c'.Agrees (·.closed) → c'.connection.closed = true → Q t () c')
    (hE : ∀ c', c'.Agrees (·.closed) → c'.connection.closed = true → E t c') :
    Obeys sockets Q E (c.connection.open_ + t) GraphStore.disconnect c :=
  ActiveGraphSurreal.obeys_disconnect (fun _ => rfl) hc hQ hE

lemma EventStore.returns_connect (runId scope now : String) :
    Returns (fun t' h => t' = h.connection.open_ + t ∧ h.Agrees (·.closed) ∧
      h.store.closed = false) t (EventStore.connect env runId scope now) l :=
  ActiveGraphSurreal.returns_connect rfl (EventStore.staysAs_prepare runId scope now)

lemma GraphStore.returns_connect (runId scope : String) :
    Returns (fun t' h => t' = h.connection.open_ + t ∧ h.Agrees (·.closed) ∧
      h.store.closed = false) t (GraphStore.connect env runId scope) l :=
  ActiveGraphSurreal.returns_connect rfl (GraphStore.staysAs_prepare runId scope)

/-! ### The stores are those of the constructors -/

section constructors

variable {σ S : Type} {serve : Server SocketCall SocketAnswer σ} {s s' : σ} {l' : ℓ}
  {h : List (CallRec SocketCall SocketAnswer σ)}

/-- The session of a connection as the server of its store. The connection is there already. -/
def session (serve : Server SocketCall SocketAnswer σ) (n : Nat) : Server Call Answer σ
  | .query .connect, s, r, s' => r = .ok () ∧ s' = s
  | c, s, r, s' => serve (.session n c) s r s'

lemma exec_session {n : Nat} {P : α → Prop} {p : Prog Call Answer α} {a : α}
    (hp : p.CallsTo (· ≠ .query .connect) P) (he : (onSession n p).Exec serve s h a s') :
    ∃ h₁, p.Exec (session serve n) s h₁ a s' := by
  induction p generalizing s h with
  | done b =>
    obtain ⟨rfl, rfl, rfl⟩ := Prog.exec_done_iff.mp he
    exact ⟨[], .done _ _⟩
  | call c k ih =>
    obtain ⟨r, s₁, h₁, hs, rfl, hk⟩ := Prog.exec_call_iff.mp he
    obtain ⟨h₂, hrest⟩ := ih r (hp.2 r) hk
    have hserve : session serve n c s r s₁ := by
      unfold session
      split
      · exact (hp.1 rfl).elim
      · exact hs
    exact ⟨_, .call hserve hrest⟩

/-- The statements of a store that has been handed out. -/
lemma exec_connect {closed : S → Bool} {store : S} {m : Py S Unit} (hm : StaysAs closed m)
    {bad bad' : Prop} [Decidable bad] [Decidable bad'] {e e' : PyErr} {c : Connected S}
    (he : Prog.Exec serve ((do
        Method.lift (raiseIf bad e)
        Method.lift (raiseIf bad' e')
        let connection ← Connection.new
        onFailure (do
          let (_, store) ← statements connection.socket m store
          return (⟨store, connection⟩ : Connected S)) (closing connection) : Soc ℓ _) l)
      s h (.ok c, l') s') :
    ¬ bad ∧ ¬ bad' ∧ ∃ s₁ h₁,
      (m store).Exec (session serve c.connection.socket) s₁ h₁ (.ok (), c.store) s' := by
  obtain ⟨u, l₁, s₁, h₁, h₂, hfirst, he, -⟩ := exec_bind_ok he
  obtain ⟨u', l₂, s₂, h₃, h₄, hsecond, he, -⟩ := exec_bind_ok he
  obtain ⟨connection, l₃, s₃, h₅, h₆, -, he, -⟩ := exec_bind_ok he
  have hpass : ∀ {bad : Prop} [Decidable bad] {e : PyErr} {l l₁ : ℓ} {s s₁ : σ} {h},
      Prog.Exec serve ((Method.lift (raiseIf bad e) : Soc ℓ Unit) l) s h (.ok (), l₁) s₁ →
      ¬ bad := by
    intro bad _ e l l₁ s s₁ h hpass hbad
    unfold raiseIf at hpass
    rw [if_pos hbad] at hpass
    obtain ⟨-, hend, -⟩ := Prog.exec_done_iff.mp hpass
    cases hend
  refine ⟨hpass hfirst, hpass hsecond, ?_⟩
  obtain ⟨⟨r, l₄⟩, s₄, h₇, h₈, hbody, hend, -⟩ := Prog.exec_bind_iff.mp he
  cases r with
  | error e =>
    obtain ⟨u, l₅, s₅, h₉, h₁₀, -, hraised, -⟩ := exec_bind_ok hend
    obtain ⟨-, hraised, -⟩ := Prog.exec_done_iff.mp hraised
    cases hraised
  | ok c' =>
    obtain ⟨-, hc, rfl⟩ := Prog.exec_done_iff.mp hend
    obtain ⟨⟨u, store'⟩, l₅, s₅, h₉, h₁₀, hstatements, hreturn, -⟩ := exec_bind_ok hbody
    obtain ⟨-, hc', rfl⟩ := Prog.exec_done_iff.mp hreturn
    obtain ⟨⟨r, store''⟩, s₆, h₁₁, h₁₂, hrun, hdone, -⟩ := Prog.exec_bind_iff.mp hstatements
    obtain ⟨-, hr, rfl⟩ := Prog.exec_done_iff.mp hdone
    cases r with
    | error e => cases hr
    | ok u =>
      cases hr
      cases hc
      cases hc'
      exact ⟨s₃, exec_session (hm store) hrun⟩

/-- The constructor against a session whose connection is there already. -/
lemma exec_construct {construct prepare : Py S Unit} {onError : PyErr → Py S Unit}
    {blank opened store : S} {n : Nat} {s₁ : σ} {h₁ : List (CallRec Call Answer σ)}
    (hconstruct : construct blank = .call (.query .connect) fun r =>
      Method.andThen (fun _ => tryCatch prepare onError) (r, opened))
    (hprepare : (prepare opened).Exec (session serve n) s₁ h₁ (.ok (), store) s') :
    ∃ h₂, (construct blank).Exec (session serve n) s₁ h₂ (.ok (), store) s' := by
  rw [hconstruct]
  exact ⟨_, .call ⟨rfl, rfl⟩ (Prog.exec_bind_iff.mpr ⟨_, _, _, [], hprepare, .done _ _, rfl⟩)⟩

/-- A store that `connect` hands out has been made by the constructor, on the session of its
connection. -/
theorem EventStore.new_of_connect {runId scope now : String} {c : Connected EventStore}
    (he : (EventStore.connect env runId scope now l).Exec serve s h (.ok c, l') s') :
    ∃ s₁ h₁, (EventStore.new env runId scope now l).Exec (session serve c.connection.socket) s₁ h₁
      (.ok c.store, l) s' := by
  obtain ⟨hrun, hscope, s₁, h₁, hprepare⟩ :=
    exec_connect (EventStore.staysAs_prepare runId scope now) he
  have hconstruct : EventStore.construct env runId scope now EventStore.blank =
      .call (.query .connect) fun r => Method.andThen (fun _ => tryCatch
        (EventStore.prepare env runId scope now) fun e => do
          modify fun self => { self with closed := true }
          throw e) (r, { EventStore.blank with scope, runId, closed := false }) := by
    unfold EventStore.construct raiseIf
    rw [if_neg hrun, if_neg hscope]
    rfl
  obtain ⟨h₂, hmade⟩ := exec_construct hconstruct hprepare
  exact ⟨s₁, _, Prog.exec_bind_iff.mpr ⟨_, _, _, [], hmade, .done _ _, rfl⟩⟩

theorem GraphStore.new_of_connect {runId scope : String} {c : Connected GraphStore}
    (he : (GraphStore.connect env runId scope l).Exec serve s h (.ok c, l') s') :
    ∃ s₁ h₁, (GraphStore.new env runId scope l).Exec (session serve c.connection.socket) s₁ h₁
      (.ok c.store, l) s' := by
  obtain ⟨hrun, hscope, s₁, h₁, hprepare⟩ :=
    exec_connect (GraphStore.staysAs_prepare runId scope) he
  have hconstruct : GraphStore.construct env runId scope GraphStore.blank =
      .call (.query .connect) fun r => Method.andThen (fun _ => tryCatch
        (GraphStore.prepare env runId scope) fun e => do
          modify fun self => { self with closed := true }
          throw e) (r, { GraphStore.blank with
            scope, runId, closed := false, rebuildingHere := false }) := by
    unfold GraphStore.construct raiseIf
    rw [if_neg hrun, if_neg hscope]
    rfl
  obtain ⟨h₂, hmade⟩ := exec_construct hconstruct hprepare
  exact ⟨s₁, _, Prog.exec_bind_iff.mpr ⟨_, _, _, [], hmade, .done _ _, rfl⟩⟩

end constructors

/-- What opens a connection for itself has closed it at its end. -/
lemma returns_runExists (runId scope : String) :
    Returns (fun t' _ => t' = t) t (EventStore.runExists env runId scope) l := by
  refine obeys_bind (returns_newConnection.mono ?_ fun _ _ h => h)
  rintro t' c l' ⟨⟨rfl, hopen⟩, rfl⟩
  have hmem : c.socket ∈ c.socket ::ₘ t := Multiset.mem_cons_self _ t
  have hlook : Makes Stmt.Later (do
      let _ ← ensureSchema schemaVersion false
      let record ← lift (recordId env.sha256 .agRun [scope, runId])
      return (← query (.selectRun record)).isSome : Py Unit Bool) :=
    (makes_ensureSchema _ _).bind fun _ => (makes_lift _).bind fun _ =>
      (makes_later (by simp)).bind fun _ => makes_pure _
  have hstays : StaysAs (fun _ : Unit => ()) _ := hlook.staysAs
  refine obeys_tryFinally (obeys_bind (obeys_statements hmem (hstays ()) (fun a s' _ => ?_) ?_))
  · exact obeys_pure (obeys_closing_opened hopen ⟨rfl, rfl⟩ ⟨rfl, rfl⟩)
  · exact obeys_closing_opened hopen ⟨rfl, rfl⟩ ⟨rfl, rfl⟩

lemma returns_reachable : Returns (fun t' _ => t' = t) t (reachable : Soc ℓ Bool) l := by
  refine obeys_tryElse (returns_newConnection.mono ?_ ?_)
  · rintro t' c l' ⟨⟨rfl, hopen⟩, rfl⟩
    have hmem : c.socket ∈ c.socket ::ₘ t := Multiset.mem_cons_self _ t
    refine obeys_tryFinally (obeys_tryElse (obeys_stays trivial ?_ (fun _ => ?_) fun _ => ?_))
    · intro m hm
      rw [← Option.some.inj hm]
      exact hmem
    · exact obeys_pure (obeys_closing_opened hopen ⟨rfl, rfl⟩ ⟨rfl, rfl⟩)
    · exact obeys_pure (obeys_closing_opened hopen ⟨rfl, rfl⟩ ⟨rfl, rfl⟩)
  · rintro t' l' ⟨rfl, rfl⟩ e
    exact obeys_pure ⟨rfl, rfl⟩

lemma returns_waitUntilReady (attempts : Nat) :
    Returns (fun t' _ => t' = t) t (waitUntilReady attempts : Soc ℓ Unit) l := by
  induction attempts with
  | zero => exact obeys_throw ⟨rfl, rfl⟩
  | succ attempts ih =>
    refine obeys_bind (returns_reachable.mono ?_ fun _ _ h => h)
    rintro t' found l' ⟨rfl, rfl⟩
    cases found with
    | true => exact obeys_pure ⟨rfl, rfl⟩
    | false => exact ih

lemma returns_waitUntilUnavailable (attempts : Nat) :
    Returns (fun t' _ => t' = t) t (waitUntilUnavailable attempts : Soc ℓ Unit) l := by
  induction attempts with
  | zero => exact obeys_throw ⟨rfl, rfl⟩
  | succ attempts ih =>
    refine obeys_bind (returns_reachable.mono ?_ fun _ _ h => h)
    rintro t' found l' ⟨rfl, rfl⟩
    cases found with
    | true => exact ih
    | false => exact obeys_pure ⟨rfl, rfl⟩

/-! ### Packs -/

/-- A method on a part of an object. -/
lemma obeys_part {S P : Type} {m : Soc S α} {s : S} (put : S → P) {Q : Multiset Nat → α → P → Prop}
    {E : Multiset Nat → P → Prop}
    (hm : Obeys sockets (fun t a s => Q t a (put s)) (fun t s => E t (put s)) t m s) :
    ((m s).bind fun x => .done (x.1, put x.2)).Keeps sockets (ends Q E) t := by
  apply Prog.keeps_bind_iff.mpr
  refine Prog.Keeps.mono ?_ hm
  rintro t ⟨e | a, s⟩ h
  · exact h
  · exact h

namespace Harness

/-- The code that loads packs does not close the stores. -/
def Loader.LeavesOpen (load : Loader) : Prop :=
  ∀ events graph, (load events graph).CallsTo (fun _ => True) fun r =>
    ∀ events' graph' packs, r = .ok (events', graph', packs) →
      events'.closed = events.closed ∧ graph'.closed = graph.closed

def PackRuntime.Agrees (p : PackRuntime) : Prop :=
  p.events.Agrees (·.closed) ∧ p.graph.Agrees (·.closed)

def PackRuntime.open_ (p : PackRuntime) : Multiset Nat :=
  p.events.connection.open_ + p.graph.connection.open_

/-- The runtime of a pack closes its second store even when the closing of the first raises. -/
lemma obeys_closePack {p : PackRuntime} (hp : p.Agrees)
    {Q : Multiset Nat → Unit → PackRuntime → Prop} {E : Multiset Nat → PackRuntime → Prop}
    (hQ : ∀ p', p'.Agrees → p'.open_ = 0 → Q t () p')
    (hE : ∀ p', p'.Agrees → p'.open_ = 0 → E t p') :
    Obeys sockets Q E (p.open_ + t) PackRuntime.close p := by
  have hboth : ∀ {events : Connected EventStore} {graph : Connected GraphStore},
      events.connection.closed = true → graph.connection.closed = true →
      events.connection.open_ + graph.connection.open_ = 0 := by
    intro events graph hevents hgraph
    unfold Connection.open_
    simp [hevents, hgraph]
  have hgraph : ∀ events : Connected EventStore, events.Agrees (·.closed) →
      events.connection.closed = true → ∀ {Q : Multiset Nat → Unit → PackRuntime → Prop},
      (∀ p', p'.Agrees → p'.open_ = 0 → Q t () p') →
      Obeys sockets Q E (p.graph.connection.open_ + t) (fun self : PackRuntime =>
        (GraphStore.disconnect self.graph).bind fun x =>
          .done (x.1, ({ self with graph := x.2 } : PackRuntime))) { p with events := events } := by
    intro events hevents hclosed Q hQ
    refine obeys_part (fun graph => { p with events := events, graph := graph })
      (GraphStore.obeys_disconnect hp.2 ?_ ?_)
    · exact fun graph hagrees hclosed' => hQ _ ⟨hevents, hagrees⟩ (hboth hclosed hclosed')
    · exact fun graph hagrees hclosed' => hE _ ⟨hevents, hagrees⟩ (hboth hclosed hclosed')
  unfold PackRuntime.open_
  rw [Multiset.add_assoc]
  refine obeys_tryFinally ?_
  refine obeys_part (fun events => { p with events := events })
    (EventStore.obeys_disconnect hp.1 ?_ ?_)
  · exact fun events hagrees hclosed => hgraph events hagrees hclosed hQ
  · exact fun events hagrees hclosed => hgraph events hagrees hclosed hE

lemma keeps_onSessions {n m : Nat} (hn : n ∈ t) (hm : m ∈ t) {P : α → Prop}
    {p : Prog BothCall BothAnswer α} (hp : p.CallsTo (fun _ => True) P) :
    (onSessions n m p).Keeps sockets (fun t' a => t' = t ∧ P a) t := by
  induction p with
  | done a => exact ⟨rfl, hp⟩
  | call c k ih =>
    obtain ⟨first, c⟩ := c
    cases first with
    | true =>
      refine ⟨fun i hi => ?_, fun r => ih r (hp.2 r)⟩
      rw [← Option.some.inj hi]
      exact hn
    | false =>
      refine ⟨fun i hi => ?_, fun r => ih r (hp.2 r)⟩
      rw [← Option.some.inj hi]
      exact hm

/-- A runtime that is not built has closed both stores. -/
theorem returns_buildRuntime (runId scope now : String) {load : Loader} (hload : load.LeavesOpen) :
    Returns (fun t' p => t' = p.open_ + t ∧ p.Agrees) t
      (buildRuntime env runId scope now load) l := by
  refine obeys_bind ((EventStore.returns_connect runId scope now).mono ?_ fun _ _ h => h)
  rintro t' events l' ⟨⟨rfl, hevents, hopen⟩, rfl⟩
  have hcleanEvents : ∀ l : ℓ, Obeys sockets (fun t' _ l' => t' = t ∧ l' = l)
      (fun t' l' => t' = t ∧ l' = l) (events.connection.open_ + t) (closeEvents events) l := by
    intro l
    exact obeys_part (fun _ => l) (EventStore.obeys_disconnect hevents
      (fun _ _ _ => ⟨rfl, rfl⟩) fun _ _ _ => ⟨rfl, rfl⟩)
  refine obeys_onFailure (obeys_bind ((GraphStore.returns_connect runId scope).mono ?_ ?_))
  · rintro t' graph l₁ ⟨⟨rfl, hgraph, hopen'⟩, rfl⟩
    have hcleanGraph : Obeys sockets (fun t' _ l₂ => Obeys sockets (fun t' _ l' => t' = t ∧ l' = l₁)
        (fun t' l' => t' = t ∧ l' = l₁) t' (closeEvents events) l₂)
        (fun t' l₂ => Obeys sockets (fun t' _ l' => t' = t ∧ l' = l₁)
          (fun t' l' => t' = t ∧ l' = l₁) t' (closeEvents events) l₂)
        (graph.connection.open_ + (events.connection.open_ + t)) (closeGraph graph) l₁ :=
      obeys_part (fun _ => l₁) (GraphStore.obeys_disconnect hgraph
        (fun _ _ _ => hcleanEvents l₁) fun _ _ _ => hcleanEvents l₁)
    have hn : events.connection.socket ∈
        graph.connection.open_ + (events.connection.open_ + t) :=
      Multiset.mem_add.mpr (.inr (mem_open (hevents.symm.trans hopen)))
    have hm : graph.connection.socket ∈ graph.connection.open_ + (events.connection.open_ + t) :=
      mem_open (hgraph.symm.trans hopen')
    refine obeys_onFailure (obeys_bind ?_)
    apply Prog.keeps_bind_iff.mpr
    refine Prog.Keeps.mono ?_ (keeps_onSessions hn hm (hload events.store graph.store))
    rintro t' (e | ⟨events', graph', packs⟩) ⟨ht, hr⟩
    · obtain rfl : t' = _ := ht
      exact hcleanGraph
    · obtain rfl : t' = _ := ht
      obtain ⟨hclosed, hclosed'⟩ := hr _ _ _ rfl
      refine obeys_pure ⟨⟨?_, hclosed.trans hevents, hclosed'.trans hgraph⟩, rfl⟩
      unfold PackRuntime.open_
      rw [← Multiset.add_assoc, Multiset.add_comm graph.connection.open_]
  · rintro t' l' ⟨rfl, rfl⟩
    exact hcleanEvents l'

end Harness

/-! ### A process -/

open Harness

/-- What a process holds. -/
inductive Owner where
  | events (c : Connected EventStore)
  | graph (c : Connected GraphStore)
  | pack (p : PackRuntime)

inductive OwnerOp where
  | openEvents (runId scope now : String)
  | openGraph (runId scope : String)
  | build (runId scope now : String) (load : Loader)
  | runExists (runId scope : String)
  | waitUntilReady (attempts : Nat)
  | waitUntilUnavailable (attempts : Nat)
  | close (j : Nat)
  /-- A method of a store of an owner, which makes the calls of `code` if the store is open. The
  fields that it leaves are left out: only `close` changes the flag. -/
  | work (j : Nat) (inGraph : Bool) (code : Prog Call Answer (Except PyErr Unit))

namespace Owner

def Agrees : Owner → Prop
  | events c => c.Agrees (·.closed)
  | graph c => c.Agrees (·.closed)
  | pack p => p.Agrees

/-- The sockets of an owner that are not closed. -/
def open_ : Owner → Multiset Nat
  | events c => c.connection.open_
  | graph c => c.connection.open_
  | pack p => p.open_

def close : Soc Owner Unit
  | events c => (EventStore.disconnect c).bind fun x => .done (x.1, events x.2)
  | graph c => (GraphStore.disconnect c).bind fun x => .done (x.1, graph x.2)
  | pack p => (PackRuntime.close p).bind fun x => .done (x.1, pack x.2)

/-- The error of a store that is closed. -/
def closedError : Owner → Bool → PyErr
  | events _, _ | pack _, false => ⟨.closedStoreError, "the SurrealEventStore is closed"⟩
  | graph _, _ | pack _, true => ⟨.closedStoreError, "the SurrealGraphStore is closed"⟩

/-- The flag `closed` of a store and its socket. -/
def store : Owner → Bool → Bool × Nat
  | events c, _ => (c.store.closed, c.connection.socket)
  | graph c, _ => (c.store.closed, c.connection.socket)
  | pack p, false => (p.events.store.closed, p.events.connection.socket)
  | pack p, true => (p.graph.store.closed, p.graph.connection.socket)

end Owner

def OwnerOp.code (env : Env F X) : OwnerOp → Soc (List Owner) Unit
  | openEvents runId scope now => do
    let c ← EventStore.connect env runId scope now
    modify fun hs => .events c :: hs
  | openGraph runId scope => do
    let c ← GraphStore.connect env runId scope
    modify fun hs => .graph c :: hs
  | build runId scope now load => do
    let p ← buildRuntime env runId scope now load
    modify fun hs => .pack p :: hs
  | runExists runId scope => do
    let _ ← EventStore.runExists env runId scope
  | waitUntilReady attempts => ActiveGraphSurreal.waitUntilReady attempts
  | waitUntilUnavailable attempts => ActiveGraphSurreal.waitUntilUnavailable attempts
  | close j => fun hs =>
    match hs[j]? with
    | none => .done (.ok (), hs)
    | some h => (Owner.close h).bind fun x => .done (x.1, hs.set j x.2)
  | work j inGraph code => fun hs =>
    match hs[j]? with
    | none => .done (.ok (), hs)
    | some h =>
      if (h.store inGraph).1 then .done (.error (h.closedError inGraph), hs)
      else (onSession (h.store inGraph).2 code).bind fun r => .done (r, hs)

/-- Operations one after the other, whether they raise or not. -/
def perform (env : Env F X) : List OwnerOp → Soc (List Owner) Unit
  | [] => pure ()
  | op :: ops => do
    tryCatch (op.code env) fun _ => pure ()
    perform env ops

/-- The loaders of the operation do not close the stores. -/
def OwnerOp.LeavesOpen : OwnerOp → Prop
  | build _ _ _ load => load.LeavesOpen
  | _ => True

/-- The open sockets are those of the owners. -/
structure Holds (t : Multiset Nat) (hs : List Owner) : Prop where
  sockets : t = (hs.map Owner.open_).sum
  agrees : ∀ h ∈ hs, h.Agrees

variable {hs : List Owner}

lemma Holds.cons (h : Holds t hs) (owner : Owner) (hagrees : owner.Agrees) :
    Holds (owner.open_ + t) (owner :: hs) := by
  refine ⟨?_, fun h' hh' => ?_⟩
  · rw [List.map_cons, List.sum_cons, h.sockets]
  · rcases List.mem_cons.mp hh' with rfl | hh'
    · exact hagrees
    · exact h.agrees h' hh'

/-- One owner among the others. -/
lemma sum_set {j : Nat} {h : Owner} (hj : hs[j]? = some h) :
    ∃ rest, (hs.map Owner.open_).sum = h.open_ + rest ∧
      ∀ h', ((hs.set j h').map Owner.open_).sum = h'.open_ + rest := by
  induction hs generalizing j with
  | nil => simp at hj
  | cons first hs ih =>
    cases j with
    | zero =>
      obtain rfl : first = h := by simpa using hj
      exact ⟨(hs.map Owner.open_).sum, by simp, fun h' => by simp⟩
    | succ j =>
      obtain ⟨rest, hsum, hset⟩ := ih (by simpa using hj : hs[j]? = some h)
      refine ⟨first.open_ + rest, ?_, fun h' => ?_⟩
      · rw [List.map_cons, List.sum_cons, hsum, add_left_comm]
      · rw [List.set_cons_succ, List.map_cons, List.sum_cons, hset, add_left_comm]

lemma obeys_closeOwner {h : Owner} (hagrees : h.Agrees)
    {Q : Multiset Nat → Unit → Owner → Prop} {E : Multiset Nat → Owner → Prop}
    (hQ : ∀ h', h'.Agrees → h'.open_ = 0 → Q t () h')
    (hE : ∀ h', h'.Agrees → h'.open_ = 0 → E t h') :
    Obeys sockets Q E (h.open_ + t) Owner.close h := by
  have hnone : ∀ c : Connection, c.closed = true → c.open_ = 0 := by
    intro c hc
    unfold Connection.open_
    simp [hc]
  cases h with
  | events c =>
    exact obeys_part Owner.events (EventStore.obeys_disconnect hagrees
      (fun c' hc hclosed => hQ (.events c') hc (hnone _ hclosed))
      fun c' hc hclosed => hE (.events c') hc (hnone _ hclosed))
  | graph c =>
    exact obeys_part Owner.graph (GraphStore.obeys_disconnect hagrees
      (fun c' hc hclosed => hQ (.graph c') hc (hnone _ hclosed))
      fun c' hc hclosed => hE (.graph c') hc (hnone _ hclosed))
  | pack p =>
    exact obeys_part Owner.pack (obeys_closePack hagrees
      (fun p' hp hopen => hQ (.pack p') hp hopen) fun p' hp hopen => hE (.pack p') hp hopen)

/-- A store that is not closed has an open socket. -/
lemma mem_store {h : Owner} (hagrees : h.Agrees) {inGraph : Bool}
    (hopen : (h.store inGraph).1 = false) : (h.store inGraph).2 ∈ h.open_ + t := by
  cases h with
  | events c => exact mem_open (hagrees.symm.trans hopen)
  | graph c => exact mem_open (hagrees.symm.trans hopen)
  | pack p =>
    cases inGraph with
    | false =>
      unfold Owner.open_ PackRuntime.open_
      simp only
      rw [Multiset.add_assoc]
      exact mem_open (hagrees.1.symm.trans hopen)
    | true =>
      unfold Owner.open_ PackRuntime.open_
      simp only
      rw [Multiset.add_comm p.events.connection.open_, Multiset.add_assoc]
      exact mem_open (hagrees.2.symm.trans hopen)

/-- One operation, whether it returns or raises. -/
theorem holds_op {op : OwnerOp} (hop : op.LeavesOpen) (h : Holds t hs) :
    Obeys sockets (fun t' _ hs' => Holds t' hs') Holds t (op.code env) hs := by
  have hraised : ∀ t' hs', t' = t ∧ hs' = hs → Holds t' hs' := by
    rintro t' hs' ⟨rfl, rfl⟩
    exact h
  cases op with
  | openEvents runId scope now =>
    refine obeys_bind ((EventStore.returns_connect runId scope now).mono ?_ hraised)
    rintro t' c hs' ⟨⟨rfl, hagrees, -⟩, rfl⟩
    exact h.cons (.events c) hagrees
  | openGraph runId scope =>
    refine obeys_bind ((GraphStore.returns_connect runId scope).mono ?_ hraised)
    rintro t' c hs' ⟨⟨rfl, hagrees, -⟩, rfl⟩
    exact h.cons (.graph c) hagrees
  | build runId scope now load =>
    refine obeys_bind ((returns_buildRuntime runId scope now hop).mono ?_ hraised)
    rintro t' p hs' ⟨⟨rfl, hagrees⟩, rfl⟩
    exact h.cons (.pack p) hagrees
  | runExists runId scope =>
    refine obeys_bind ((returns_runExists runId scope).mono ?_ hraised)
    rintro t' _ hs' ⟨rfl, rfl⟩
    exact obeys_pure h
  | waitUntilReady attempts =>
    exact (returns_waitUntilReady attempts).mono (fun t' _ hs' => hraised t' hs') hraised
  | waitUntilUnavailable attempts =>
    exact (returns_waitUntilUnavailable attempts).mono (fun t' _ hs' => hraised t' hs') hraised
  | close j =>
    cases hj : hs[j]? with
    | none =>
      have hrun : OwnerOp.code env (.close j) hs = .done (.ok (), hs) := by
        simp only [OwnerOp.code, hj]
      unfold Obeys
      rw [hrun]
      exact h
    | some owner =>
      have hrun : OwnerOp.code env (.close j) hs = (Owner.close owner).bind fun x =>
          .done (x.1, hs.set j x.2) := by
        simp only [OwnerOp.code, hj]
      obtain ⟨rest, hsum, hset⟩ := sum_set hj
      have hclosed : ∀ h', h'.Agrees → h'.open_ = 0 → Holds rest (hs.set j h') := by
        intro h' hagrees hopen
        refine ⟨?_, fun h'' hh'' => ?_⟩
        · rw [hset, hopen, Multiset.zero_add]
        · rcases List.mem_or_eq_of_mem_set hh'' with hold | rfl
          · exact h.agrees h'' hold
          · exact hagrees
      have hagrees : owner.Agrees := h.agrees owner (List.mem_of_getElem? hj)
      unfold Obeys
      rw [hrun, h.sockets, hsum]
      exact obeys_part (fun h' => hs.set j h') (obeys_closeOwner hagrees hclosed hclosed)
  | work j inGraph code =>
    cases hj : hs[j]? with
    | none =>
      have hrun : OwnerOp.code env (.work j inGraph code) hs = .done (.ok (), hs) := by
        simp only [OwnerOp.code, hj]
      unfold Obeys
      rw [hrun]
      exact h
    | some owner =>
      cases hopen : (owner.store inGraph).1 with
      | true =>
        have hrun : OwnerOp.code env (.work j inGraph code) hs =
            .done (.error (owner.closedError inGraph), hs) := by
          simp only [OwnerOp.code, hj, hopen, if_true]
        unfold Obeys
        rw [hrun]
        exact h
      | false =>
        have hrun : OwnerOp.code env (.work j inGraph code) hs =
            (onSession (owner.store inGraph).2 code).bind fun r => .done (r, hs) := by
          simp only [OwnerOp.code, hj, hopen, Bool.false_eq_true, if_false]
        have hagrees : owner.Agrees := h.agrees owner (List.mem_of_getElem? hj)
        obtain ⟨rest, hsum, -⟩ := sum_set hj
        have hmem : (owner.store inGraph).2 ∈ t := by
          rw [h.sockets, hsum]
          exact mem_store hagrees hopen
        unfold Obeys
        rw [hrun]
        apply Prog.keeps_bind_iff.mpr
        refine Prog.Keeps.mono ?_ (keeps_onSession hmem (callsTo_any code))
        rintro t' (e | a) ⟨ht, -⟩
        · exact hraised t' hs ⟨ht, rfl⟩
        · exact hraised t' hs ⟨ht, rfl⟩

theorem holds_perform {ops : List OwnerOp} (hops : ∀ op ∈ ops, op.LeavesOpen) (h : Holds t hs) :
    Obeys sockets (fun t' _ hs' => Holds t' hs') Holds t (perform env ops) hs := by
  induction ops generalizing t hs with
  | nil => exact obeys_pure h
  | cons op ops ih =>
    have hrest : ∀ t hs, Holds t hs →
        Obeys sockets (fun t' _ hs' => Holds t' hs') Holds t (perform env ops) hs :=
      fun t hs => ih fun op' hop' => hops op' (List.mem_cons_of_mem _ hop')
    have hfirst : Obeys sockets (fun t' _ hs' => Holds t' hs') Holds t (op.code env) hs :=
      holds_op (hops op (List.mem_cons_self ..)) h
    refine obeys_bind (obeys_tryCatch (hfirst.mono (fun t _ hs h => hrest t hs h) ?_))
    exact fun t hs h _ => obeys_pure (hrest t hs h)

/-- Whatever a server does and answers, and whether the operations of a process return or raise,
every call is made on an open socket, and the sockets that are open are those of the owners
that are not closed. -/
theorem sockets_belong_to_owners {σ : Type} {serve : Server SocketCall SocketAnswer σ}
    {ops : List OwnerOp} (hops : ∀ op ∈ ops, op.LeavesOpen) {s s' : σ}
    {h : List (CallRec SocketCall SocketAnswer σ)} {r : Except PyErr Unit}
    (he : (perform env ops []).Exec serve s h (r, hs) s') :
    sockets.Allows 0 h ∧ sockets.after 0 h = (hs.map Owner.open_).sum := by
  have hempty : Holds 0 [] := ⟨rfl, by simp⟩
  have hkeeps : Obeys sockets (fun t' _ hs' => Holds t' hs') Holds 0 (perform env ops) [] :=
    holds_perform hops hempty
  obtain ⟨hallows, hends⟩ := Prog.Keeps.exec hkeeps he
  cases r with
  | error e => exact ⟨hallows, Holds.sockets hends⟩
  | ok a => exact ⟨hallows, Holds.sockets hends⟩

/-! ### A process against the engine -/

/-- A server that numbers its sockets and carries out every statement. -/
def numbering : (c : SocketCall) → Nat × Database → SocketAnswer c × (Nat × Database)
  | .connect, (n, db) => (.ok (n, true), (n + 1, db))
  | .session n c, (next, db) =>
    (((engine referenceSdk).perform n c db).1, (next, ((engine referenceSdk).perform n c db).2))
  | .version _, s => (.ok "3.0.0", s)
  | .signin _, s | .use _, s | .newSession _, s | .signinSession _, s | .useSession _, s
  | .closeSession _, s | .close _, s => (.ok (), s)

lemma exec_numbering {ℓ : Type} (p : Prog SocketCall SocketAnswer (α × ℓ)) (s : Nat × Database) :
    p.Exec (fun c s r s' => (r, s') = numbering c s) s (p.history numbering s)
      ((p.run numbering s).1.1, (p.run numbering s).1.2) (p.run numbering s).2 :=
  Prog.exec_run (fun _ _ => rfl) p s

/-- The event store is closed, the graph store stays open, and no runtime comes of packs that
cannot be loaded. -/
def openingOps : List OwnerOp :=
  [.openEvents "r" "s" "now", .openGraph "r" "s", .close 1, .build "r" "s" "now"
    fun _ _ => .done (.error ⟨.other "PackHarnessError", "could not import packs.demo"⟩)]

lemma leavesOpen_opening : ∀ op ∈ openingOps, op.LeavesOpen := by
  intro op hop
  simp only [openingOps, List.mem_cons, List.not_mem_nil, or_false] at hop
  rcases hop with rfl | rfl | rfl | rfl
  · trivial
  · trivial
  · trivial
  · intro events graph events' graph' packs hr
    cases hr

theorem sockets_belong_to_owners_opening :
    sockets.Allows 0 ((perform (reference Unit) openingOps []).history numbering
      (0, freshDatabase)) ∧
    sockets.after 0 ((perform (reference Unit) openingOps []).history numbering
        (0, freshDatabase)) =
      (((perform (reference Unit) openingOps []).run numbering (0, freshDatabase)).1.2.map
        Owner.open_).sum :=
  sockets_belong_to_owners leavesOpen_opening
    (exec_numbering (perform (reference Unit) openingOps []) (0, freshDatabase))

end ActiveGraphSurreal
