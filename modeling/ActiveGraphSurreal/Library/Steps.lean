import ActiveGraphSurreal.Library.Confined
import ActiveGraphSurreal.Library.Traces
import ActiveGraphSurreal.Library.Typestate

/-!
# The way to a call

A program that has not ended is on its way. What it has done so far decides which part of a
sequence it is in, and what has been shown of the whole program holds of the rest.
-/

namespace Library

namespace Prog

variable {C : Type} {A : C → Type} {α β σ ε ℓ : Type} {serve : Server C A σ} {R : σ → σ → Prop}

/-- The program has made the calls of a history and goes on as another program. Others may act
before each of its calls and after the last. -/
inductive Steps (serve : Server C A σ) (R : σ → σ → Prop) :
    Prog C A α → σ → List (CallRec C A σ) → Prog C A α → σ → Prop
  | nil {p s s'} (hR : R s s') : Steps serve R p s [] p s'
  | call {c k s s₁ r s₂ h q s'} (hR : R s s₁) (hs : serve c s₁ r s₂)
      (hk : Steps serve R (k r) s₂ h q s') :
      Steps serve R (.call c k) s (⟨c, s₁, r, s₂⟩ :: h) q s'

/-- The program is about to make the call. -/
def Reaches (serve : Server C A σ) (R : σ → σ → Prop) (p : Prog C A α) (s : σ)
    (h : List (CallRec C A σ)) (c : C) (s' : σ) : Prop :=
  ∃ k, Steps serve R p s h (.call c k) s'

/-- The program has ended. -/
abbrev Ends (serve : Server C A σ) (R : σ → σ → Prop) (p : Prog C A α) (s : σ)
    (h : List (CallRec C A σ)) (a : α) (s' : σ) : Prop :=
  Steps serve R p s h (.done a) s'

lemma Steps.rely (htrans : ∀ a b c, R a b → R b c → R a c) {p q : Prog C A α} {s s' s'' : σ}
    {h : List (CallRec C A σ)} (hp : Steps serve R p s h q s') (hR : R s' s'') :
    Steps serve R p s h q s'' := by
  induction hp with
  | nil hfirst => exact .nil (htrans _ _ _ hfirst hR)
  | call hfirst hs hk ih => exact .call hfirst hs (ih hR)

lemma Steps.snoc {p : Prog C A α} {s s' s'' : σ} {h : List (CallRec C A σ)} {c : C}
    {k : A c → Prog C A α} {r : A c} (hp : Steps serve R p s h (.call c k) s')
    (hs : serve c s' r s'') (hR : R s'' s'') :
    Steps serve R p s (h ++ [⟨c, s', r, s''⟩]) (k r) s'' := by
  generalize hq : Prog.call c k = q at hp
  induction hp with
  | nil hfirst =>
    subst hq
    exact .call hfirst hs (.nil hR)
  | call hfirst hserve hk ih => exact .call hfirst hserve (ih hs hq)

lemma reaches_done {a : α} {s s' : σ} {h : List (CallRec C A σ)} {c : C} :
    ¬ Reaches serve R (.done a) s h c s' := by
  rintro ⟨k, hk⟩
  cases hk

/-- A call of a sequence belongs to its first part, or to its second after the first has
ended. -/
theorem reaches_bind (hrefl : ∀ s, R s s) {p : Prog C A α} {f : α → Prog C A β} {s s' : σ}
    {h : List (CallRec C A σ)} {c : C} (hp : Reaches serve R (p.bind f) s h c s') :
    Reaches serve R p s h c s' ∨ ∃ a s₁ h₁ h₂, h = h₁ ++ h₂ ∧ Ends serve R p s h₁ a s₁ ∧
      Reaches serve R (f a) s₁ h₂ c s' := by
  induction p generalizing s h with
  | done a => exact .inr ⟨a, s, [], h, rfl, .nil (hrefl s), hp⟩
  | call d k ih =>
    obtain ⟨k', hp⟩ := hp
    rw [bind] at hp
    cases hp with
    | nil hR => exact .inl ⟨k, .nil hR⟩
    | call hR hs hk =>
      rcases ih _ ⟨k', hk⟩ with ⟨k₁, hfirst⟩ | ⟨a, s₁, h₁, h₂, rfl, hend, hrest⟩
      · exact .inl ⟨k₁, .call hR hs hfirst⟩
      · exact .inr ⟨a, s₁, _ :: h₁, h₂, rfl, .call hR hs hend, hrest⟩

variable {G : CallRec C A σ → Prop} {Q : List (CallRec C A σ) → α → σ → Prop}

/-- What is safe stays safe on its way. -/
theorem Safe.steps (htrans : ∀ a b c, R a b → R b c → R a c)
    (hstable : ∀ h a s s', Q h a s → R s s' → Q h a s') {h h' : List (CallRec C A σ)}
    {p q : Prog C A α} {s s' : σ} (hp : Safe serve R G Q h p s) (hs : Steps serve R p s h' q s') :
    Safe serve R G Q (h ++ h') q s' := by
  induction hs generalizing h with
  | nil hR =>
    rw [List.append_nil]
    exact hp.rely htrans hstable hR
  | call hR hserve hk ih =>
    have hrest := ih (hp _ hR _ _ hserve).2
    rw [List.append_assoc] at hrest
    exact hrest

/-- What a program that keeps to a typestate calls is allowed. -/
theorem Keeps.steps {τ : Type} {D : Typestate C A τ} {Q : τ → α → Prop} {t : τ}
    {p q : Prog C A α} {s s' : σ} {h : List (CallRec C A σ)} (hp : p.Keeps D Q t)
    (hs : Steps serve R p s h q s') : q.Keeps D Q (D.after t h) := by
  induction hs generalizing t with
  | nil hR => exact hp
  | call hR hserve hk ih => exact ih (hp.2 _)

lemma CallsTo.steps {P : C → Prop} {Q : α → Prop} {p q : Prog C A α} {s s' : σ}
    {h : List (CallRec C A σ)} (hp : p.CallsTo P Q) (hs : Steps serve R p s h q s') :
    q.CallsTo P Q := by
  induction hs with
  | nil hR => exact hp
  | call hR hserve hk ih => exact ih (hp.2 _)

end Prog

/-! ### Methods -/

namespace Method

open Prog

variable {C : Type} {A : C → Type} {α β σ ε ℓ : Type} {serve : Server C A σ} {R : σ → σ → Prop}
  {l : ℓ} {s s' : σ} {h : List (CallRec C A σ)} {c : C}

theorem reaches_bind (hrefl : ∀ s, R s s) {m : Method C A ε ℓ α} {f : α → Method C A ε ℓ β}
    (hm : Reaches serve R ((m >>= f) l) s h c s') :
    Reaches serve R (m l) s h c s' ∨ ∃ a l₁ s₁ h₁ h₂, h = h₁ ++ h₂ ∧
      Ends serve R (m l) s h₁ (.ok a, l₁) s₁ ∧ Reaches serve R (f a l₁) s₁ h₂ c s' := by
  rcases Prog.reaches_bind hrefl hm with hfirst | ⟨⟨r, l₁⟩, s₁, h₁, h₂, hh, hend, hrest⟩
  · exact .inl hfirst
  · cases r with
    | error e => exact absurd hrest reaches_done
    | ok a => exact .inr ⟨a, l₁, s₁, h₁, h₂, hh, hend, hrest⟩

theorem reaches_tryCatch (hrefl : ∀ s, R s s) {m : Method C A ε ℓ α} {f : ε → Method C A ε ℓ α}
    (hm : Reaches serve R ((tryCatch m f) l) s h c s') :
    Reaches serve R (m l) s h c s' ∨ ∃ e l₁ s₁ h₁ h₂, h = h₁ ++ h₂ ∧
      Ends serve R (m l) s h₁ (.error e, l₁) s₁ ∧ Reaches serve R (f e l₁) s₁ h₂ c s' := by
  rcases Prog.reaches_bind hrefl hm with hfirst | ⟨⟨r, l₁⟩, s₁, h₁, h₂, hh, hend, hrest⟩
  · exact .inl hfirst
  · cases r with
    | error e => exact .inr ⟨e, l₁, s₁, h₁, h₂, hh, hend, hrest⟩
    | ok a => exact absurd hrest reaches_done

/-- What is lifted calls nothing. -/
lemma reaches_lift_bind {x : Except ε α} {f : α → Method C A ε ℓ β}
    (hm : Reaches serve R ((lift x >>= f) l) s h c s') :
    ∃ a, x = .ok a ∧ Reaches serve R (f a l) s h c s' := by
  cases x with
  | error e => exact absurd hm reaches_done
  | ok a => exact ⟨a, rfl, hm⟩

end Method

/-! ### Confined programs -/

theorem Confined.steps {Q ε α σ : Type} {Rep : Q → Type} {P : Q → Prop} {M : Bool → α → Prop}
    {b : Bool} {serve : Server (DbCall Q) (DbAnswer ε Rep) σ} {R : σ → σ → Prop}
    {p q : Prog (DbCall Q) (DbAnswer ε Rep) α} {s s' : σ}
    {h : List (CallRec (DbCall Q) (DbAnswer ε Rep) σ)} (hp : Confined P M b p)
    (hs : Prog.Steps serve R p s h q s') : ∃ b', Confined P M b' q := by
  induction hs generalizing b with
  | nil hR => exact ⟨b, hp⟩
  | @call c k s s₁ r s₂ h q s' hR hserve hk ih =>
    cases c with
    | begin =>
      cases r with
      | error e => exact ih (hp.2 e)
      | ok u => exact ih hp.1
    | commit => exact ih (hp.2 r)
    | cancel => exact ih (hp r)
    | query q => exact ih (hp.2 r)
    | txQuery q => exact ih (hp.2 r)

/-! ### Runs -/

namespace Contract

variable {ι ℓ Op C : Type} {A : C → Type} {α σ : Type} [DecidableEq ι] {S : System ι ℓ Op C A α σ}

open Prog

/-- A client at work is on the way that its operation has taken from a state in which it was
idle. -/
theorem steps (K : Contract S) {c₀ c : Config ι ℓ Op C A α σ} {tr : List (Label ι ℓ Op C A α σ)}
    (h₀ : K.Ok c₀) (hidle : ∀ i, ∃ l, c₀.client i = .idle l) (hr : S.Run c₀ tr c) :
    ∀ i l op h p, c.client i = .busy l op h p → ∃ s₀, K.inv s₀ ∧ K.idle i l s₀ ∧
      Steps (S.serve i) (K.rely i) (S.code l op) s₀ h p c.shared := by
  induction hr with
  | nil =>
    intro i l op h p hbusy
    obtain ⟨l₀, hl₀⟩ := hidle i
    rw [hl₀] at hbusy
    cases hbusy
  | @snoc tr c e c' hr hs ih =>
    have hok : K.Ok c := (K.sound h₀ hr).1
    obtain ⟨hok', hlabel⟩ := K.step_ok hok hs
    intro i l op h p hbusy
    cases hs with
    | @start s cl j l' op' hj =>
      by_cases hi : i = j
      · subst hi
        simp only [Function.update_self, Client.busy.injEq] at hbusy
        obtain ⟨rfl, rfl, rfl, rfl⟩ := hbusy
        have hl : K.idle i l' s := by simpa [hj, ClientOk] using hok.2 i
        exact ⟨s, hok.1, hl, .nil (K.rely_refl i s hok.1)⟩
      · simp only [Function.update_of_ne hi] at hbusy
        exact ih i l op h p hbusy
    | @call s cl j l' op' h' d k r s' hj hserve =>
      by_cases hi : i = j
      · subst hi
        simp only [Function.update_self, Client.busy.injEq] at hbusy
        obtain ⟨rfl, rfl, rfl, rfl⟩ := hbusy
        obtain ⟨s₀, hinv, hl, hsteps⟩ := ih i l' op' h' _ hj
        exact ⟨s₀, hinv, hl, hsteps.snoc hserve (K.rely_refl i s' hok'.1)⟩
      · simp only [Function.update_of_ne hi] at hbusy
        obtain ⟨s₀, hinv, hl, hsteps⟩ := ih i l op h p hbusy
        have hrely : K.rely i s s' := K.guar_rely j i l' op' _ (Ne.symm hi) hlabel.2 hlabel.1
        exact ⟨s₀, hinv, hl, hsteps.rely (K.rely_trans i) hrely⟩
    | @finish s cl j l' op' h' a hj =>
      by_cases hi : i = j
      · subst hi
        simp at hbusy
      · simp only [Function.update_of_ne hi] at hbusy
        exact ih i l op h p hbusy

/-- The calls of an operation before one of its calls are in the trace before it. -/
theorem reaches (K : Contract S) {c₀ c : Config ι ℓ Op C A α σ}
    {front rest : List (Label ι ℓ Op C A α σ)} {i : ι} {l : ℓ} {op : Op} {rec : CallRec C A σ}
    (h₀ : K.Ok c₀) (hidle : ∀ i, ∃ l, c₀.client i = .idle l)
    (hr : S.Run c₀ (front ++ .call i l op rec :: rest) c) :
    ∃ s₀ h, K.inv s₀ ∧ K.idle i l s₀ ∧ (∀ rec' ∈ h, .call i l op rec' ∈ front) ∧
      Reaches (S.serve i) (K.rely i) (S.code l op) s₀ h rec.call rec.before := by
  obtain ⟨d, d', hfront, hs, -⟩ := hr.around
  obtain ⟨l₀, hl₀⟩ := hidle i
  cases hs with
  | @call s cl i l op h call k r s' hi hserve =>
    obtain ⟨s₀, hinv, hl, hsteps⟩ := K.steps h₀ hidle hfront i l op h _ hi
    exact ⟨s₀, h, hinv, hl, (hfront.history_since hl₀).1 l op h _ hi, k, hsteps⟩

end Contract

end Library
