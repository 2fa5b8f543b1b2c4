import ActiveGraphSurreal.Library.CallTree

/-!
# The answers that a program has had

The history of a run against a server that is a function, and what it says about the answers to
the calls of a sequence.
-/

namespace Library

variable {C : Type} {A : C → Type} {α β σ ε ℓ : Type}

/-- The server that answers as `f` does. -/
def serving (f : (c : C) → σ → A c × σ) : Server C A σ := fun c s r s' => (r, s') = f c s

namespace Prog

lemma exec_serving (f : (c : C) → σ → A c × σ) (p : Prog C A α) (s : σ) :
    Exec (serving f) p s (p.history f s) (p.run f s).1 (p.run f s).2 :=
  exec_run (fun _ _ => rfl) p s

/-- Every answer is one that the server may give. -/
lemma Exec.served {serve : Server C A σ} {p : Prog C A α} {s s' : σ} {h : List (CallRec C A σ)}
    {a : α} (he : Exec serve p s h a s') {rec : CallRec C A σ} (hrec : rec ∈ h) :
    serve rec.call rec.before rec.answer rec.after := by
  induction he with
  | done a s => cases hrec
  | call hs hk ih =>
    rcases List.mem_cons.mp hrec with hfirst | hlater
    · rw [hfirst]
      exact hs
    · exact ih hlater

lemma history_bind (f : (c : C) → σ → A c × σ) (p : Prog C A α) (g : α → Prog C A β) (s : σ) :
    (p.bind g).history f s =
      p.history f s ++ (g (p.run f s).1).history f (p.run f s).2 := by
  induction p generalizing s with
  | done a => rfl
  | call c k ih =>
    rw [bind, history, history, run, ih, List.cons_append]

end Prog

/-! ### Answers in a history -/

/-- Some call of the history was this one and had this answer. -/
def Answered (h : List (CallRec C A σ)) (c : C) (r : A c) : Prop :=
  ∃ s s', (⟨c, s, r, s'⟩ : CallRec C A σ) ∈ h

variable {h h' : List (CallRec C A σ)} {c : C} {r : A c}

lemma not_answered_nil : ¬ Answered ([] : List (CallRec C A σ)) c r := by
  rintro ⟨s, s', hrec⟩
  cases hrec

lemma answered_append : Answered (h ++ h') c r ↔ Answered h c r ∨ Answered h' c r := by
  unfold Answered
  simp only [List.mem_append, exists_or]

lemma answered_singleton {rec : CallRec C A σ} :
    Answered [rec] c r ↔ ∃ s s', rec = ⟨c, s, r, s'⟩ := by
  unfold Answered
  simp only [List.mem_singleton]
  exact exists₂_congr fun s s' => eq_comm

lemma answered_self {s s' : σ} {r' : A c} :
    Answered [(⟨c, s, r, s'⟩ : CallRec C A σ)] c r' ↔ r' = r := by
  rw [answered_singleton]
  constructor
  · rintro ⟨s₁, s₂, hrec⟩
    cases hrec
    rfl
  · rintro rfl
    exact ⟨s, s', rfl⟩

lemma not_answered (hcalls : ∀ rec ∈ h, rec.call ≠ c) : ¬ Answered h c r := by
  rintro ⟨s, s', hrec⟩
  exact hcalls _ hrec rfl

namespace Method

variable {serve : Server C A σ} {l : ℓ}

/-! ### What a method does with its answers -/

/-- Every execution from this local state ends in `Q` of its history, its result and the local
state. -/
def Meets (serve : Server C A σ) (m : Method C A ε ℓ α) (l : ℓ)
    (Q : List (CallRec C A σ) → Except ε α → ℓ → Prop) : Prop :=
  ∀ s h x l' s', Prog.Exec serve (m l) s h (x, l') s' → Q h x l'

variable {Q : List (CallRec C A σ) → Except ε β → ℓ → Prop}

lemma Meets.mono {Q' : List (CallRec C A σ) → Except ε β → ℓ → Prop} {m : Method C A ε ℓ β}
    (hm : Meets serve m l Q) (hQ : ∀ h x l', Q h x l' → Q' h x l') : Meets serve m l Q' :=
  fun s h x l' s' he => hQ h x l' (hm s h x l' s' he)

lemma meets_done {m : Method C A ε ℓ β} {x : Except ε β} {l' : ℓ} (hm : m l = .done (x, l'))
    (h : Q [] x l') : Meets serve m l Q := by
  intro s h' y l'' s' he
  rw [hm] at he
  obtain ⟨rfl, hend, rfl⟩ := Prog.exec_done_iff.mp he
  obtain ⟨rfl, rfl⟩ := Prod.mk.inj hend
  exact h

lemma meets_pure {a : β} (h : Q [] (.ok a) l) : Meets serve (pure a) l Q := meets_done rfl h

lemma meets_throw {e : ε} (h : Q [] (.error e) l) : Meets serve (throw e) l Q := meets_done rfl h

lemma meets_lift {x : Except ε β} (h : Q [] x l) : Meets serve (lift x) l Q := by
  cases x with
  | error e => exact meets_done rfl h
  | ok a => exact meets_done rfl h

/-- A single call. -/
lemma meets_call {m : Method C A ε ℓ β} {c : C} {k : A c → Except ε β}
    (hm : m l = .call c fun r => .done (k r, l))
    (h : ∀ r s s', serve c s r s' → Q [⟨c, s, r, s'⟩] (k r) l) : Meets serve m l Q := by
  intro s h' y l' s' he
  rw [hm] at he
  obtain ⟨r, s₁, h₁, hs, rfl, hk⟩ := Prog.exec_call_iff.mp he
  obtain ⟨rfl, hend, rfl⟩ := Prog.exec_done_iff.mp hk
  obtain ⟨rfl, rfl⟩ := Prod.mk.inj hend
  exact h r s s' hs

theorem meets_bind {M : List (CallRec C A σ) → Except ε α → ℓ → Prop} {m : Method C A ε ℓ α}
    {f : α → Method C A ε ℓ β} (hm : Meets serve m l M)
    (herror : ∀ h e l', M h (.error e) l' → Q h (.error e) l')
    (hok : ∀ h₁ a l₁, M h₁ (.ok a) l₁ →
      Meets serve (f a) l₁ fun h₂ x l' => Q (h₁ ++ h₂) x l') : Meets serve (m >>= f) l Q := by
  intro s h x l' s' he
  obtain ⟨⟨y, l₁⟩, s₁, h₁, h₂, hfirst, hrest, rfl⟩ := Prog.exec_bind_iff.mp he
  have hM := hm _ _ _ _ _ hfirst
  cases y with
  | error e =>
    obtain ⟨rfl, hend, rfl⟩ := Prog.exec_done_iff.mp hrest
    obtain ⟨rfl, rfl⟩ := Prod.mk.inj hend
    rw [List.append_nil]
    exact herror _ _ _ hM
  | ok a => exact hok _ _ _ hM _ _ _ _ _ hrest

theorem meets_tryCatch {M : List (CallRec C A σ) → Except ε β → ℓ → Prop} {m : Method C A ε ℓ β}
    {f : ε → Method C A ε ℓ β} (hm : Meets serve m l M)
    (hok : ∀ h a l', M h (.ok a) l' → Q h (.ok a) l')
    (herror : ∀ h₁ e l₁, M h₁ (.error e) l₁ →
      Meets serve (f e) l₁ fun h₂ x l' => Q (h₁ ++ h₂) x l') :
    Meets serve (tryCatch m f : Method C A ε ℓ β) l Q := by
  intro s h x l' s' he
  obtain ⟨⟨y, l₁⟩, s₁, h₁, h₂, hfirst, hrest, rfl⟩ := Prog.exec_bind_iff.mp he
  have hM := hm _ _ _ _ _ hfirst
  cases y with
  | error e => exact herror _ _ _ hM _ _ _ _ _ hrest
  | ok a =>
    obtain ⟨rfl, hend, rfl⟩ := Prog.exec_done_iff.mp hrest
    obtain ⟨rfl, rfl⟩ := Prod.mk.inj hend
    rw [List.append_nil]
    exact hok _ _ _ hM

theorem meets_tryElse {M : List (CallRec C A σ) → Except ε α → ℓ → Prop} {m : Method C A ε ℓ α}
    {onError : ε → Method C A ε ℓ β} {onOk : α → Method C A ε ℓ β} (hm : Meets serve m l M)
    (herror : ∀ h₁ e l₁, M h₁ (.error e) l₁ →
      Meets serve (onError e) l₁ fun h₂ x l' => Q (h₁ ++ h₂) x l')
    (hok : ∀ h₁ a l₁, M h₁ (.ok a) l₁ →
      Meets serve (onOk a) l₁ fun h₂ x l' => Q (h₁ ++ h₂) x l') :
    Meets serve (tryElse m onError onOk) l Q := by
  intro s h x l' s' he
  obtain ⟨⟨y, l₁⟩, s₁, h₁, h₂, hfirst, hrest, rfl⟩ := Prog.exec_bind_iff.mp he
  have hM := hm _ _ _ _ _ hfirst
  cases y with
  | error e => exact herror _ _ _ hM _ _ _ _ _ hrest
  | ok a => exact hok _ _ _ hM _ _ _ _ _ hrest

end Method

end Library
