import Mathlib.Data.List.Basic
import Mathlib.Logic.Function.Basic

/-!
# Programs as trees of calls

A program that talks to a server is the tree of its calls: it is done, or it makes a call
and goes on with the answer. `Exec` runs a program alone; `Safe` is its correctness while
others use the same server between two of its calls (rely and guarantee). A `Method`
works on the local state of one object and may raise.
-/

namespace Library

inductive Prog (C : Type) (A : C → Type) (α : Type) where
  | done (a : α)
  | call (c : C) (k : A c → Prog C A α)

/-- One answered call with the server states around it. -/
structure CallRec (C : Type) (A : C → Type) (σ : Type) where
  call : C
  before : σ
  answer : A call
  after : σ

/-- Which answers a server may give to a call, and what the call does to the state. -/
abbrev Server (C : Type) (A : C → Type) (σ : Type) := (c : C) → σ → A c → σ → Prop

variable {C : Type} {A : C → Type} {α β γ σ ε ℓ : Type}

/-- A server whose clients are interrupted by others before every call. -/
def amid (others : σ → σ → Prop) (serve : Server C A σ) : Server C A σ :=
  fun c s r s' => ∃ s₁, others s s₁ ∧ serve c s₁ r s'

namespace Prog

def bind : Prog C A α → (α → Prog C A β) → Prog C A β
  | done a, f => f a
  | call c k, f => call c fun r => (k r).bind f

lemma bind_assoc (p : Prog C A α) (f : α → Prog C A β) (g : β → Prog C A γ) :
    (p.bind f).bind g = p.bind fun a => (f a).bind g := by
  induction p with
  | done a => rfl
  | call c k ih =>
    simp only [bind]
    congr 1
    funext r
    exact ih r

/-! ### Running alone -/

inductive Exec (serve : Server C A σ) : Prog C A α → σ → List (CallRec C A σ) → α → σ → Prop
  | done (a : α) (s : σ) : Exec serve (.done a) s [] a s
  | call {c : C} {k : A c → Prog C A α} {s s₁ s₂ : σ} {r : A c} {h : List (CallRec C A σ)} {a : α}
      (hs : serve c s r s₁) (hk : Exec serve (k r) s₁ h a s₂) :
      Exec serve (.call c k) s (⟨c, s, r, s₁⟩ :: h) a s₂

variable {serve : Server C A σ}

lemma exec_done_iff {a b : α} {s s' : σ} {h : List (CallRec C A σ)} :
    Exec serve (.done a) s h b s' ↔ h = [] ∧ b = a ∧ s' = s := by
  constructor
  · rintro ⟨⟩
    exact ⟨rfl, rfl, rfl⟩
  · rintro ⟨rfl, rfl, rfl⟩
    exact .done _ _

lemma exec_call_iff {c : C} {k : A c → Prog C A α} {s s' : σ} {h : List (CallRec C A σ)} {a : α} :
    Exec serve (.call c k) s h a s' ↔ ∃ r s₁ h₁, serve c s r s₁ ∧ h = ⟨c, s, r, s₁⟩ :: h₁ ∧
      Exec serve (k r) s₁ h₁ a s' := by
  constructor
  · intro h
    cases h with
    | call hs hk => exact ⟨_, _, _, hs, rfl, hk⟩
  · rintro ⟨r, s₁, h₁, hs, rfl, hk⟩
    exact .call hs hk

/-- A sequence runs its first part to the end and then its second part. -/
theorem exec_bind_iff {p : Prog C A α} {f : α → Prog C A β} {s s' : σ}
    {h : List (CallRec C A σ)} {b : β} :
    Exec serve (p.bind f) s h b s' ↔ ∃ a s₁ h₁ h₂, Exec serve p s h₁ a s₁ ∧
      Exec serve (f a) s₁ h₂ b s' ∧ h = h₁ ++ h₂ := by
  induction p generalizing s h with
  | done a =>
    constructor
    · intro hf
      exact ⟨a, s, [], h, .done a s, hf, rfl⟩
    · rintro ⟨a', s₁, h₁, h₂, hp, hf, rfl⟩
      obtain ⟨rfl, rfl, rfl⟩ := exec_done_iff.mp hp
      exact hf
  | call c k ih =>
    rw [bind, exec_call_iff]
    constructor
    · rintro ⟨r, s₁, h₁, hs, rfl, hk⟩
      obtain ⟨a, s₂, h₂, h₃, hp, hf, rfl⟩ := (ih r).mp hk
      exact ⟨a, s₂, _ :: h₂, h₃, .call hs hp, hf, rfl⟩
    · rintro ⟨a, s₁, h₁, h₂, hp, hf, rfl⟩
      obtain ⟨r, s₂, h₃, hs, rfl, hk⟩ := exec_call_iff.mp hp
      exact ⟨r, s₂, h₃ ++ h₂, hs, rfl, (ih r).mpr ⟨a, s₁, h₃, h₂, hk, hf, rfl⟩⟩

/-- Running against a server that is a function. -/
def run (f : (c : C) → σ → A c × σ) : Prog C A α → σ → α × σ
  | .done a, s => (a, s)
  | .call c k, s => (k (f c s).1).run f (f c s).2

lemma run_bind (f : (c : C) → σ → A c × σ) (p : Prog C A α) (g : α → Prog C A β) (s : σ) :
    (p.bind g).run f s = (g (p.run f s).1).run f (p.run f s).2 := by
  induction p generalizing s with
  | done a => rfl
  | call c k ih => exact ih _ _

/-- The calls of a run against a server that is a function. -/
def history (f : (c : C) → σ → A c × σ) : Prog C A α → σ → List (CallRec C A σ)
  | .done _, _ => []
  | .call c k, s => ⟨c, s, (f c s).1, (f c s).2⟩ :: (k (f c s).1).history f (f c s).2

/-- A server that can answer as `f` does carries out what `run` says. -/
theorem exec_run {f : (c : C) → σ → A c × σ} (hf : ∀ c s, serve c s (f c s).1 (f c s).2)
    (p : Prog C A α) (s : σ) : Exec serve p s (p.history f s) (p.run f s).1 (p.run f s).2 := by
  induction p generalizing s with
  | done a => exact .done a s
  | call c k ih => exact .call (hf c s) (ih _ _)

/-- Every call that the program can make is one of `P`, and it ends in `Q`, whatever the
answers are. -/
def CallsTo (P : C → Prop) (Q : α → Prop) : Prog C A α → Prop
  | .done a => Q a
  | .call c k => P c ∧ ∀ r, CallsTo P Q (k r)

lemma callsTo_bind_iff {P : C → Prop} {Q : β → Prop} {p : Prog C A α} {f : α → Prog C A β} :
    (p.bind f).CallsTo P Q ↔ p.CallsTo P fun a => (f a).CallsTo P Q := by
  induction p with
  | done a => exact Iff.rfl
  | call c k ih => exact and_congr_right fun _ => forall_congr' ih

lemma CallsTo.mono {P P' : C → Prop} {Q Q' : α → Prop} (hP : ∀ c, P c → P' c)
    (hQ : ∀ a, Q a → Q' a) {p : Prog C A α} (hp : p.CallsTo P Q) : p.CallsTo P' Q' := by
  induction p with
  | done a => exact hQ a hp
  | call c k ih => exact ⟨hP c hp.1, fun r => ih r (hp.2 r)⟩

/-- `P` holds of every call and the call right before it, with its answer, and `Q` of the
end and the last call, whatever the answers are. -/
def Follows (P : Option (Sigma A) → C → Prop) (Q : Option (Sigma A) → α → Prop) :
    Option (Sigma A) → Prog C A α → Prop
  | last, .done a => Q last a
  | last, .call c k => P last c ∧ ∀ r, Follows P Q (some ⟨c, r⟩) (k r)

lemma follows_bind_iff {P : Option (Sigma A) → C → Prop} {Q : Option (Sigma A) → β → Prop}
    {p : Prog C A α} {f : α → Prog C A β} {last : Option (Sigma A)} :
    (p.bind f).Follows P Q last ↔ p.Follows P (fun last a => (f a).Follows P Q last) last := by
  induction p generalizing last with
  | done a => exact Iff.rfl
  | call c k ih => exact and_congr_right fun _ => forall_congr' fun r => ih r

lemma Follows.mono {P : Option (Sigma A) → C → Prop} {Q Q' : Option (Sigma A) → α → Prop}
    (hQ : ∀ last a, Q last a → Q' last a) {p : Prog C A α} {last : Option (Sigma A)}
    (hp : p.Follows P Q last) : p.Follows P Q' last := by
  induction p generalizing last with
  | done a => exact hQ last a hp
  | call c k ih => exact ⟨hp.1, fun r => ih r (hp.2 r)⟩

/-! ### Every execution -/

/-- Every execution ends in `Q`. -/
def Always (serve : Server C A σ) (Q : α → σ → Prop) : Prog C A α → σ → Prop
  | .done a, s => Q a s
  | .call c k, s => ∀ r s', serve c s r s' → Always serve Q (k r) s'

lemma always_iff {Q : α → σ → Prop} {p : Prog C A α} {s : σ} :
    Always serve Q p s ↔ ∀ h a s', Exec serve p s h a s' → Q a s' := by
  induction p generalizing s with
  | done a =>
    constructor
    · intro hq h b s' he
      obtain ⟨-, rfl, rfl⟩ := exec_done_iff.mp he
      exact hq
    · intro hq
      exact hq [] a s (.done a s)
  | call c k ih =>
    constructor
    · intro hq h b s' he
      obtain ⟨r, s₁, h₁, hs, rfl, hk⟩ := exec_call_iff.mp he
      exact (ih r).mp (hq r s₁ hs) h₁ b s' hk
    · intro hq r s₁ hs
      exact (ih r).mpr fun h a s' hk => hq _ a s' (.call hs hk)

lemma always_bind_iff {Q : β → σ → Prop} {p : Prog C A α} {f : α → Prog C A β} {s : σ} :
    Always serve Q (p.bind f) s ↔ Always serve (fun a s => Always serve Q (f a) s) p s := by
  induction p generalizing s with
  | done a => exact Iff.rfl
  | call c k ih => exact forall₃_congr fun r s' _ => ih r

lemma Always.mono {Q Q' : α → σ → Prop} (hQ : ∀ a s, Q a s → Q' a s) {p : Prog C A α} {s : σ}
    (hp : Always serve Q p s) : Always serve Q' p s := by
  rw [always_iff] at hp ⊢
  exact fun h a s' he => hQ a s' (hp h a s' he)

/-- An execution whose calls respect a preorder respects it. -/
lemma Exec.path {R : σ → σ → Prop} (hrefl : ∀ s, R s s)
    (htrans : ∀ a b c, R a b → R b c → R a c) {p : Prog C A α} {s s' : σ}
    {h : List (CallRec C A σ)} {a : α} (he : Exec serve p s h a s')
    (hcalls : ∀ rec ∈ h, R rec.before rec.after) : R s s' := by
  induction he with
  | done a s => exact hrefl s
  | call hs hk ih =>
    have hfirst := hcalls _ (List.mem_cons_self ..)
    exact htrans _ _ _ hfirst (ih fun rec hrec => hcalls rec (List.mem_cons_of_mem _ hrec))

/-- A call is made in the state that the call before it has left. -/
lemma Exec.linked {p : Prog C A α} {s s' : σ} {h h₁ h₂ : List (CallRec C A σ)}
    {rec rec' : CallRec C A σ} {a : α} (he : Exec serve p s h a s')
    (hh : h = h₁ ++ rec :: rec' :: h₂) : rec'.before = rec.after := by
  induction he generalizing h₁ with
  | done a s =>
    have hlength := congrArg List.length hh
    simp at hlength
  | @call c k s s₁ s₂ r h a hs hk ih =>
    cases h₁ with
    | nil =>
      obtain ⟨rfl, rfl⟩ := List.cons.inj hh
      generalize k r = p at hk
      cases hk with
      | call hs' hk' => rfl
    | cons first h₁ =>
      obtain ⟨-, hrest⟩ := List.cons.inj hh
      exact ih hrest

/-- Others may do nothing. -/
lemma Exec.amid {others : σ → σ → Prop} (hrefl : ∀ s, others s s) {p : Prog C A α} {s s' : σ}
    {h : List (CallRec C A σ)} {a : α} (he : Exec serve p s h a s') :
    Exec (amid others serve) p s h a s' := by
  induction he with
  | done a s => exact .done a s
  | call hs hk ih => exact .call ⟨_, hrefl _, hs⟩ ih

/-! ### Running among others -/

/-- Whatever the others do within `R` between two calls, every call keeps the guarantee
`G`, and the program ends in `Q`. The list is the history of its own calls. -/
def Safe (serve : Server C A σ) (R : σ → σ → Prop) (G : CallRec C A σ → Prop)
    (Q : List (CallRec C A σ) → α → σ → Prop) : List (CallRec C A σ) → Prog C A α → σ → Prop
  | h, .done a, s => Q h a s
  | h, .call c k, s => ∀ s₁, R s s₁ → ∀ r s₂, serve c s₁ r s₂ →
      G ⟨c, s₁, r, s₂⟩ ∧ Safe serve R G Q (h ++ [⟨c, s₁, r, s₂⟩]) (k r) s₂

variable {R : σ → σ → Prop} {G : CallRec C A σ → Prop} {Q : List (CallRec C A σ) → α → σ → Prop}

/-- Steps of the others before the next call are harmless. -/
lemma Safe.rely (htrans : ∀ a b c, R a b → R b c → R a c)
    (hstable : ∀ h a s s', Q h a s → R s s' → Q h a s') {h : List (CallRec C A σ)}
    {p : Prog C A α} {s s' : σ} (hp : Safe serve R G Q h p s) (hR : R s s') :
    Safe serve R G Q h p s' := by
  cases p with
  | done a => exact hstable h a s s' hp hR
  | call c k =>
    intro s₁ h₁
    exact hp s₁ (htrans s s' s₁ hR h₁)

lemma Safe.mono {Q' : List (CallRec C A σ) → α → σ → Prop} (hQ : ∀ h a s, Q h a s → Q' h a s)
    {h : List (CallRec C A σ)} {p : Prog C A α} {s : σ} (hp : Safe serve R G Q h p s) :
    Safe serve R G Q' h p s := by
  induction p generalizing h s with
  | done a => exact hQ h a s hp
  | call c k ih =>
    intro s₁ h₁ r s₂ hs
    obtain ⟨hg, hrest⟩ := hp s₁ h₁ r s₂ hs
    exact ⟨hg, ih r hrest⟩

/-- Every call of a safe program is one that the server has served. -/
lemma Safe.served {h : List (CallRec C A σ)} {p : Prog C A α} {s : σ}
    (hp : Safe serve R G Q h p s) :
    Safe serve R (fun rec => serve rec.call rec.before rec.answer rec.after ∧ G rec) Q h p s := by
  induction p generalizing h s with
  | done a => exact hp
  | call c k ih =>
    intro s₁ h₁ r s₂ hs
    obtain ⟨hg, hrest⟩ := hp s₁ h₁ r s₂ hs
    exact ⟨⟨hs, hg⟩, ih r hrest⟩

/-- What both sides keep holds at every call and at the end. -/
lemma Safe.keeping {I : σ → Prop} (hR : ∀ a b, I a → R a b → I b)
    (hG : ∀ rec, G rec → I rec.before → I rec.after) {h : List (CallRec C A σ)} {p : Prog C A α}
    {s : σ} (hs : I s) (hp : Safe serve R G Q h p s) :
    Safe serve R (fun rec => G rec ∧ I rec.before) (fun h a s => Q h a s ∧ I s) h p s := by
  induction p generalizing h s with
  | done a => exact ⟨hp, hs⟩
  | call c k ih =>
    intro s₁ h₁ r s₂ hserve
    obtain ⟨hg, hrest⟩ := hp s₁ h₁ r s₂ hserve
    have hcall : I s₁ := hR _ _ hs h₁
    exact ⟨⟨hg, hcall⟩, ih r (hG _ hg hcall) hrest⟩

/-- Every call that the program can make is one of `P`. -/
def Calls (P : C → Prop) : Prog C A α → Prop
  | .done _ => True
  | .call c k => P c ∧ ∀ r, Calls P (k r)

lemma calls_bind {P : C → Prop} {p : Prog C A α} {f : α → Prog C A β} (hp : p.Calls P)
    (hf : ∀ a, (f a).Calls P) : (p.bind f).Calls P := by
  induction p with
  | done a => exact hf a
  | call c k ih => exact ⟨hp.1, fun r => ih r (hp.2 r)⟩

lemma Safe.calls {P : C → Prop} {h : List (CallRec C A σ)} {p : Prog C A α} {s : σ}
    (hp : Safe serve R G Q h p s) (hP : p.Calls P) (hh : ∀ rec ∈ h, P rec.call) :
    Safe serve R G (fun h a s => Q h a s ∧ ∀ rec ∈ h, P rec.call) h p s := by
  induction p generalizing h s with
  | done a => exact ⟨hp, hh⟩
  | call c k ih =>
    intro s₁ h₁ r s₂ hs
    obtain ⟨hg, hrest⟩ := hp s₁ h₁ r s₂ hs
    refine ⟨hg, ih r hrest (hP.2 r) ?_⟩
    intro rec hrec
    rcases List.mem_append.mp hrec with hrec | hrec
    · exact hh rec hrec
    · rw [List.mem_singleton.mp hrec]
      exact hP.1

/-- For an end that does not look at the history, the history does not matter. -/
lemma Safe.history (hQ : ∀ h h' a s, Q h a s → Q h' a s) {h h' : List (CallRec C A σ)}
    {p : Prog C A α} {s : σ} (hp : Safe serve R G Q h p s) : Safe serve R G Q h' p s := by
  induction p generalizing h h' s with
  | done a => exact hQ h h' a s hp
  | call c k ih =>
    intro s₁ h₁ r s₂ hs
    obtain ⟨hg, hrest⟩ := hp s₁ h₁ r s₂ hs
    exact ⟨hg, ih r hrest⟩

/-- A sequence is safe when its first part ends where its second part is safe. -/
theorem safe_bind_iff {Q : List (CallRec C A σ) → β → σ → Prop} {p : Prog C A α}
    {f : α → Prog C A β} {h : List (CallRec C A σ)} {s : σ} :
    Safe serve R G Q h (p.bind f) s ↔
      Safe serve R G (fun h a s => Safe serve R G Q h (f a) s) h p s := by
  induction p generalizing h s with
  | done a => exact Iff.rfl
  | call c k ih =>
    simp only [bind, Safe]
    refine forall₅_congr fun s₁ _ r s₂ _ => and_congr_right fun _ => ?_
    exact ih r

/-- Alone, a safe program keeps its promises at every call and at its end. -/
theorem Safe.exec {I : σ → Prop} (hrefl : ∀ s, I s → R s s)
    (hG : ∀ rec, G rec → I rec.before → I rec.after) {h h' : List (CallRec C A σ)}
    {p : Prog C A α} {s s' : σ} {a : α} (hp : Safe serve R G Q h p s) (hI : I s)
    (he : Exec serve p s h' a s') : Q (h ++ h') a s' ∧ I s' ∧ ∀ rec ∈ h', G rec := by
  induction he generalizing h with
  | done a s =>
    refine ⟨?_, hI, by simp⟩
    rw [List.append_nil]
    exact hp
  | call hs hk ih =>
    obtain ⟨hg, hrest⟩ := hp _ (hrefl _ hI) _ _ hs
    obtain ⟨hq, hI', hall⟩ := ih hrest (hG _ hg hI)
    refine ⟨by simpa using hq, hI', ?_⟩
    intro rec hrec
    rcases List.mem_cons.mp hrec with rfl | hrec
    · exact hg
    · exact hall rec hrec

end Prog

/-! ### Methods -/

/-- Code of an object with local state `ℓ` that returns an `α` or raises an `ε`. The local
state survives an exception. -/
def Method (C : Type) (A : C → Type) (ε ℓ α : Type) : Type := ℓ → Prog C A (Except ε α × ℓ)

namespace Method

def ret (a : α) : Method C A ε ℓ α := fun l => .done (.ok a, l)

def raise (e : ε) : Method C A ε ℓ α := fun l => .done (.error e, l)

/-- The rest of a sequence after its first part. -/
def andThen (f : α → Method C A ε ℓ β) : Except ε α × ℓ → Prog C A (Except ε β × ℓ)
  | (.ok a, l) => f a l
  | (.error e, l) => .done (.error e, l)

/-- What `except` does after the guarded part. -/
def orElse (f : ε → Method C A ε ℓ α) : Except ε α × ℓ → Prog C A (Except ε α × ℓ)
  | (.ok a, l) => .done (.ok a, l)
  | (.error e, l) => f e l

instance : Monad (Method C A ε ℓ) where
  pure := ret
  bind m f := fun l => (m l).bind (andThen f)

instance : MonadExceptOf ε (Method C A ε ℓ) where
  throw := raise
  tryCatch m f := fun l => (m l).bind (orElse f)

instance : MonadStateOf ℓ (Method C A ε ℓ) where
  get := fun l => .done (.ok l, l)
  set l' := fun _ => .done (.ok (), l')
  modifyGet f := fun l => .done (.ok (f l).1, (f l).2)

def branch (onError : ε → Method C A ε ℓ β) (onOk : α → Method C A ε ℓ β) :
    Except ε α × ℓ → Prog C A (Except ε β × ℓ)
  | (.ok a, l) => onOk a l
  | (.error e, l) => onError e l

/-- `try` with an `except` for everything and an `else`. -/
def tryElse (m : Method C A ε ℓ α) (onError : ε → Method C A ε ℓ β)
    (onOk : α → Method C A ε ℓ β) : Method C A ε ℓ β := fun l => (m l).bind (branch onError onOk)

/-- A pure computation that may raise. -/
def lift : Except ε α → Method C A ε ℓ α
  | .ok a => ret a
  | .error e => raise e

lemma bind_assoc (m : Method C A ε ℓ α) (f : α → Method C A ε ℓ β) (k : β → Method C A ε ℓ γ) :
    m >>= f >>= k = m >>= fun a => f a >>= k := by
  funext l
  change ((m l).bind (andThen f)).bind (andThen k) = _
  rw [Prog.bind_assoc]
  change _ = (m l).bind (andThen fun a => f a >>= k)
  congr 1
  funext x
  obtain ⟨r, l'⟩ := x
  cases r with
  | error e => rfl
  | ok a => rfl

/-! ### The calls of a method -/

def Calls (P : C → Prop) (m : Method C A ε ℓ α) : Prop := ∀ l, (m l).Calls P

variable {P : C → Prop}

lemma calls_pure (a : α) : Calls P (pure a : Method C A ε ℓ α) := fun _ => trivial

lemma calls_throw (e : ε) : Calls P (throw e : Method C A ε ℓ α) := fun _ => trivial

lemma calls_lift (x : Except ε α) : Calls P (lift x : Method C A ε ℓ α) := by
  intro l
  cases x with
  | error e => trivial
  | ok a => trivial

lemma Calls.bind {m : Method C A ε ℓ α} {f : α → Method C A ε ℓ β} (hm : Calls P m)
    (hf : ∀ a, Calls P (f a)) : Calls P (m >>= f) := by
  intro l
  apply Prog.calls_bind (hm l)
  rintro ⟨r, l'⟩
  cases r with
  | error e => trivial
  | ok a => exact hf a l'

lemma Calls.tryCatch {m : Method C A ε ℓ α} {f : ε → Method C A ε ℓ α} (hm : Calls P m)
    (hf : ∀ e, Calls P (f e)) : Calls P (tryCatch m f) := by
  intro l
  apply Prog.calls_bind (hm l)
  rintro ⟨r, l'⟩
  cases r with
  | error e => exact hf e l'
  | ok a => trivial

lemma Calls.tryElse {m : Method C A ε ℓ α} {onError : ε → Method C A ε ℓ β}
    {onOk : α → Method C A ε ℓ β} (hm : Calls P m) (he : ∀ e, Calls P (onError e))
    (ho : ∀ a, Calls P (onOk a)) : Calls P (Method.tryElse m onError onOk) := by
  intro l
  apply Prog.calls_bind (hm l)
  rintro ⟨r, l'⟩
  cases r with
  | error e => exact he e l'
  | ok a => exact ho a l'

/-! ### The calls of a method, each with the one before it -/

section follows

variable {P : Option (Sigma A) → C → Prop} {Q : Option (Sigma A) → Except ε β × ℓ → Prop}
  {M : Option (Sigma A) → Except ε α × ℓ → Prop} {last : Option (Sigma A)} {l : ℓ}

lemma follows_lift {x : Except ε β} (h : Q last (x, l)) :
    (Method.lift x l : Prog C A _).Follows P Q last := by
  cases x with
  | error e => exact h
  | ok a => exact h

lemma follows_bind {m : Method C A ε ℓ α} {f : α → Method C A ε ℓ β}
    (hm : (m l).Follows P M last)
    (hok : ∀ last a l', M last (.ok a, l') → (f a l').Follows P Q last)
    (herror : ∀ last e l', M last (.error e, l') → Q last (.error e, l')) :
    ((m >>= f) l).Follows P Q last := by
  apply Prog.follows_bind_iff.mpr
  refine hm.mono ?_
  rintro last ⟨e | a, l'⟩ h
  · exact herror last e l' h
  · exact hok last a l' h

lemma follows_tryElse {m : Method C A ε ℓ α} {onError : ε → Method C A ε ℓ β}
    {onOk : α → Method C A ε ℓ β} (hm : (m l).Follows P M last)
    (hok : ∀ last a l', M last (.ok a, l') → (onOk a l').Follows P Q last)
    (herror : ∀ last e l', M last (.error e, l') → (onError e l').Follows P Q last) :
    (Method.tryElse m onError onOk l).Follows P Q last := by
  apply Prog.follows_bind_iff.mpr
  refine hm.mono ?_
  rintro last ⟨e | a, l'⟩ h
  · exact herror last e l' h
  · exact hok last a l' h

lemma follows_tryCatch {m : Method C A ε ℓ β} {f : ε → Method C A ε ℓ β}
    {M : Option (Sigma A) → Except ε β × ℓ → Prop} (hm : (m l).Follows P M last)
    (hok : ∀ last a l', M last (.ok a, l') → Q last (.ok a, l'))
    (herror : ∀ last e l', M last (.error e, l') → (f e l').Follows P Q last) :
    ((tryCatch m f : Method C A ε ℓ β) l).Follows P Q last := by
  apply Prog.follows_bind_iff.mpr
  refine hm.mono ?_
  rintro last ⟨e | a, l'⟩ h
  · exact herror last e l' h
  · exact hok last a l' h

end follows

/-! ### Every execution of a method -/

section always

variable {serve : Server C A σ} {Q : Except ε β × ℓ → σ → Prop} {M : Except ε α × ℓ → σ → Prop}
  {l : ℓ} {s : σ}

lemma always_lift {x : Except ε β} (h : Q (x, l) s) :
    Prog.Always serve Q (Method.lift x l : Prog C A _) s := by
  cases x with
  | error e => exact h
  | ok a => exact h

lemma always_bind {m : Method C A ε ℓ α} {f : α → Method C A ε ℓ β}
    (hm : Prog.Always serve M (m l) s)
    (hok : ∀ a l' s', M (.ok a, l') s' → Prog.Always serve Q (f a l') s')
    (herror : ∀ e l' s', M (.error e, l') s' → Q (.error e, l') s') :
    Prog.Always serve Q ((m >>= f) l) s := by
  apply Prog.always_bind_iff.mpr
  refine hm.mono ?_
  rintro ⟨e | a, l'⟩ s' h
  · exact herror e l' s' h
  · exact hok a l' s' h

lemma always_tryCatch {m : Method C A ε ℓ β} {f : ε → Method C A ε ℓ β}
    {M : Except ε β × ℓ → σ → Prop} (hm : Prog.Always serve M (m l) s)
    (hok : ∀ a l' s', M (.ok a, l') s' → Q (.ok a, l') s')
    (herror : ∀ e l' s', M (.error e, l') s' → Prog.Always serve Q (f e l') s') :
    Prog.Always serve Q ((tryCatch m f : Method C A ε ℓ β) l) s := by
  apply Prog.always_bind_iff.mpr
  refine hm.mono ?_
  rintro ⟨e | a, l'⟩ s' h
  · exact herror e l' s' h
  · exact hok a l' s' h

variable {l' : ℓ} {s' : σ} {b : β} {h : List (CallRec C A σ)}

/-- A sequence that returns has passed its first part. -/
lemma exec_bind_ok {m : Method C A ε ℓ α} {f : α → Method C A ε ℓ β}
    (he : Prog.Exec serve ((m >>= f) l) s h (.ok b, l') s') :
    ∃ a l₁ s₁ h₁ h₂, Prog.Exec serve (m l) s h₁ (.ok a, l₁) s₁ ∧
      Prog.Exec serve (f a l₁) s₁ h₂ (.ok b, l') s' ∧ h = h₁ ++ h₂ := by
  obtain ⟨⟨r, l₁⟩, s₁, h₁, h₂, hm, hf, rfl⟩ := Prog.exec_bind_iff.mp he
  cases r with
  | error e =>
    obtain ⟨-, hend, -⟩ := Prog.exec_done_iff.mp hf
    cases hend
  | ok a => exact ⟨a, l₁, s₁, h₁, h₂, hm, hf, rfl⟩

/-- What returns past a handler that never returns has not raised. -/
lemma exec_tryCatch_ok {m : Method C A ε ℓ β} {f : ε → Method C A ε ℓ β}
    (hraises : ∀ e l₁ s₁ h₁, ¬ Prog.Exec serve (f e l₁) s₁ h₁ (.ok b, l') s')
    (he : Prog.Exec serve ((tryCatch m f : Method C A ε ℓ β) l) s h (.ok b, l') s') :
    Prog.Exec serve (m l) s h (.ok b, l') s' := by
  obtain ⟨⟨r, l₁⟩, s₁, h₁, h₂, hm, hf, rfl⟩ := Prog.exec_bind_iff.mp he
  cases r with
  | error e => exact absurd hf (hraises e l₁ s₁ h₂)
  | ok a =>
    obtain ⟨rfl, hend, rfl⟩ := Prog.exec_done_iff.mp hf
    cases hend
    rw [List.append_nil]
    exact hm

end always

end Method

end Library
