import ActiveGraphSurreal.Library.Clients

/-!
# Typestates

A typestate says which calls a program may make and what their answers make of it. A program
that keeps to it does so against every server, and among any other clients.
-/

namespace Library

structure Typestate (C : Type) (A : C → Type) (τ : Type) where
  allows : τ → C → Prop
  next : τ → (c : C) → A c → τ

variable {C : Type} {A : C → Type} {α β σ ε ℓ τ : Type} (D : Typestate C A τ)

namespace Typestate

/-- The typestate after the calls of a history. -/
def after (t : τ) (h : List (CallRec C A σ)) : τ :=
  h.foldl (fun t rec => D.next t rec.call rec.answer) t

/-- Every call of the history is allowed when it is made. -/
def Allows : τ → List (CallRec C A σ) → Prop
  | _, [] => True
  | t, rec :: h => D.allows t rec.call ∧ Allows (D.next t rec.call rec.answer) h

end Typestate

namespace Prog

/-- Whatever the answers are, the program makes calls that are allowed and ends in `Q`. -/
def Keeps (Q : τ → α → Prop) : τ → Prog C A α → Prop
  | t, .done a => Q t a
  | t, .call c k => D.allows t c ∧ ∀ r, Keeps Q (D.next t c r) (k r)

variable {D}

lemma keeps_bind_iff {Q : τ → β → Prop} {p : Prog C A α} {f : α → Prog C A β} {t : τ} :
    (p.bind f).Keeps D Q t ↔ p.Keeps D (fun t a => (f a).Keeps D Q t) t := by
  induction p generalizing t with
  | done a => exact Iff.rfl
  | call c k ih => exact and_congr_right fun _ => forall_congr' fun r => ih r

lemma Keeps.mono {Q Q' : τ → α → Prop} (hQ : ∀ t a, Q t a → Q' t a) {p : Prog C A α} {t : τ}
    (hp : p.Keeps D Q t) : p.Keeps D Q' t := by
  induction p generalizing t with
  | done a => exact hQ t a hp
  | call c k ih => exact ⟨hp.1, fun r => ih r (hp.2 r)⟩

/-- A program that keeps to a typestate keeps to one that allows more. -/
lemma Keeps.weaken {D' : Typestate C A τ} (hallows : ∀ t c, D.allows t c → D'.allows t c)
    (hnext : ∀ t c r, D'.next t c r = D.next t c r) {Q : τ → α → Prop} {p : Prog C A α} {t : τ}
    (hp : p.Keeps D Q t) : p.Keeps D' Q t := by
  induction p generalizing t with
  | done a => exact hp
  | call c k ih =>
    refine ⟨hallows t c hp.1, fun r => ?_⟩
    rw [hnext t c r]
    exact ih r (hp.2 r)

/-- Against every server, the calls of the program are allowed. -/
theorem Keeps.exec {serve : Server C A σ} {Q : τ → α → Prop} {p : Prog C A α} {t : τ} {s s' : σ}
    {h : List (CallRec C A σ)} {a : α} (hp : p.Keeps D Q t) (he : p.Exec serve s h a s') :
    D.Allows t h ∧ Q (D.after t h) a := by
  induction he generalizing t with
  | done a s => exact ⟨trivial, hp⟩
  | call hs hk ih =>
    obtain ⟨hallowed, hrest⟩ := hp
    obtain ⟨hcalls, hend⟩ := ih (hrest _)
    exact ⟨⟨hallowed, hcalls⟩, hend⟩

end Prog

namespace Method

/-- The method takes the typestate from `a` to `b`, or to one with `E` if it raises. -/
def Takes (a b : τ) (E : τ → Prop) (m : Method C A ε ℓ α) : Prop :=
  ∀ l, (m l).Keeps D (fun t x => match x.1 with
    | .ok _ => t = b
    | .error _ => E t) a

variable {D} {a b c : τ} {E E' : τ → Prop}

lemma takes_pure (x : α) : Takes D a a E (pure x : Method C A ε ℓ α) := fun _ => rfl

lemma takes_throw (e : ε) (ha : E a) : Takes D a b E (throw e : Method C A ε ℓ α) := fun _ => ha

lemma takes_lift (x : Except ε α) (ha : E a) : Takes D a a E (lift x : Method C A ε ℓ α) := by
  intro l
  cases x with
  | error e => exact ha
  | ok x => rfl

lemma takes_modify (f : ℓ → ℓ) : Takes D a a E (modify f : Method C A ε ℓ Unit) := fun _ => rfl

lemma Takes.get {f : ℓ → Method C A ε ℓ β} (hf : ∀ self, Takes D a b E (f self)) :
    Takes D a b E (get >>= f) := fun l => hf l l

lemma Takes.bind {m : Method C A ε ℓ α} {f : α → Method C A ε ℓ β} (hm : Takes D a b E m)
    (hf : ∀ x, Takes D b c E (f x)) : Takes D a c E (m >>= f) := by
  intro l
  apply Prog.keeps_bind_iff.mpr
  refine (hm l).mono ?_
  rintro t ⟨e | x, l'⟩ ht
  · exact ht
  · obtain rfl : t = b := ht
    exact hf x l'

lemma Takes.tryCatch {m : Method C A ε ℓ α} {f : ε → Method C A ε ℓ α} (hm : Takes D a b E m)
    (hf : ∀ e t, E t → Takes D t b E' (f e)) : Takes D a b E' (tryCatch m f) := by
  intro l
  apply Prog.keeps_bind_iff.mpr
  refine (hm l).mono ?_
  rintro t ⟨e | x, l'⟩ ht
  · exact hf e t ht l'
  · exact ht

lemma Takes.tryElse {m : Method C A ε ℓ α} {onError : ε → Method C A ε ℓ β}
    {onOk : α → Method C A ε ℓ β} (hm : Takes D a b E m)
    (he : ∀ e t, E t → Takes D t c E' (onError e)) (ho : ∀ x, Takes D b c E' (onOk x)) :
    Takes D a c E' (Method.tryElse m onError onOk) := by
  intro l
  apply Prog.keeps_bind_iff.mpr
  refine (hm l).mono ?_
  rintro t ⟨e | x, l'⟩ ht
  · exact he e t ht l'
  · obtain rfl : t = b := ht
    exact ho x l'

/-! ### Ends that depend on the result -/

/-- `Q` of what a method returns and leaves, `E` of what it leaves when it raises. -/
def ends (Q : τ → α → ℓ → Prop) (E : τ → ℓ → Prop) : τ → Except ε α × ℓ → Prop
  | t, (.ok a, l) => Q t a l
  | t, (.error _, l) => E t l

variable (D) in
/-- From the typestate `t` and the local state `l` the method ends in `Q`, or in `E` if it
raises. -/
def Obeys (Q : τ → α → ℓ → Prop) (E : τ → ℓ → Prop) (t : τ) (m : Method C A ε ℓ α) (l : ℓ) : Prop :=
  (m l).Keeps D (ends Q E) t

section obeys

variable {t : τ} {l : ℓ} {Q Q' : τ → α → ℓ → Prop} {R : τ → β → ℓ → Prop} {E E' : τ → ℓ → Prop}

lemma Obeys.mono {m : Method C A ε ℓ α} (hm : Obeys D Q E t m l)
    (hQ : ∀ t a l, Q t a l → Q' t a l) (hE : ∀ t l, E t l → E' t l) : Obeys D Q' E' t m l := by
  refine Prog.Keeps.mono ?_ hm
  rintro t ⟨e | a, l⟩ h
  · exact hE t l h
  · exact hQ t a l h

lemma obeys_pure {a : α} (h : Q t a l) : Obeys D Q E t (pure a : Method C A ε ℓ α) l := h

lemma obeys_throw {e : ε} (h : E t l) : Obeys D Q E t (throw e : Method C A ε ℓ α) l := h

lemma obeys_lift {x : Except ε α} (hQ : ∀ a, x = .ok a → Q t a l) (hE : E t l) :
    Obeys D Q E t (lift x : Method C A ε ℓ α) l := by
  cases x with
  | error e => exact hE
  | ok a => exact hQ a rfl

lemma obeys_bind {m : Method C A ε ℓ α} {f : α → Method C A ε ℓ β}
    (hm : Obeys D (fun t a l => Obeys D R E t (f a) l) E t m l) : Obeys D R E t (m >>= f) l := by
  apply Prog.keeps_bind_iff.mpr
  refine Prog.Keeps.mono ?_ hm
  rintro t ⟨e | a, l⟩ h
  · exact h
  · exact h

lemma obeys_tryElse {m : Method C A ε ℓ α} {onError : ε → Method C A ε ℓ β}
    {onOk : α → Method C A ε ℓ β}
    (hm : Obeys D (fun t a l => Obeys D R E t (onOk a) l)
      (fun t l => ∀ e, Obeys D R E t (onError e) l) t m l) :
    Obeys D R E t (tryElse m onError onOk) l := by
  apply Prog.keeps_bind_iff.mpr
  refine Prog.Keeps.mono ?_ hm
  rintro t ⟨e | a, l⟩ h
  · exact h e
  · exact h

lemma obeys_tryCatch {m : Method C A ε ℓ α} {f : ε → Method C A ε ℓ α}
    (hm : Obeys D Q (fun t l => ∀ e, Obeys D Q E t (f e) l) t m l) :
    Obeys D Q E t (tryCatch m f) l := by
  apply Prog.keeps_bind_iff.mpr
  refine Prog.Keeps.mono ?_ hm
  rintro t ⟨e | a, l⟩ h
  · exact h e
  · exact h

end obeys

end Method

/-! ### In a system -/

namespace System

variable {ι Op : Type} [DecidableEq ι] {S : System ι ℓ Op C A α σ} {D}

/-- Every call of a run is one that the server has served. -/
lemma Run.served {c₀ c : Config ι ℓ Op C A α σ} {tr : List (Label ι ℓ Op C A α σ)}
    (hr : Run S c₀ tr c) {i : ι} {l : ℓ} {op : Op} {rec : CallRec C A σ}
    (hmem : .call i l op rec ∈ tr) : S.serve i rec.call rec.before rec.answer rec.after := by
  obtain ⟨front, rest, rfl⟩ := List.append_of_mem hmem
  obtain ⟨d, -, hrest⟩ := hr.split rfl
  exact hrest.call_cons.2.1

/-- Where the typestate of each client says something about the shared state, and no other
client can change that, it does so in every run. -/
theorem Run.keeps {t₀ : τ} (hcode : ∀ l op, (S.code l op).Keeps D (fun t _ => t = t₀) t₀)
    {J : ι → τ → σ → Prop} {s₀ : σ} {l₀ : ι → ℓ} (h₀ : ∀ i, J i t₀ s₀)
    {tr : List (Label ι ℓ Op C A α σ)} {c : Config ι ℓ Op C A α σ}
    (hown : ∀ i l op rec t, .call i l op rec ∈ tr →
      S.serve i rec.call rec.before rec.answer rec.after → D.allows t rec.call → J i t rec.before → J i (D.next t rec.call rec.answer) rec.after)
    (hother : ∀ i j l op rec t, i ≠ j → .call j l op rec ∈ tr →
      S.serve j rec.call rec.before rec.answer rec.after → J i t rec.before → J i t rec.after)
    (hr : Run S ⟨s₀, fun i => .idle (l₀ i)⟩ tr c) :
    (∀ i l, c.client i = .idle l → J i t₀ c.shared) ∧
    ∀ i l op h p, c.client i = .busy l op h p →
      ∃ t, J i t c.shared ∧ p.Keeps D (fun t _ => t = t₀) t := by
  induction hr with
  | nil => exact ⟨fun i l _ => h₀ i, by simp⟩
  | @snoc tr c e c' hr hs ih =>
    obtain ⟨hidle, hbusy⟩ := ih
      (fun i l op rec t hmem => hown i l op rec t (List.mem_append_left _ hmem))
      (fun i j l op rec t hij hmem => hother i j l op rec t hij (List.mem_append_left _ hmem))
    cases hs with
    | @start s cl i l op hi =>
      refine ⟨fun j l' hj => ?_, fun j l' op' h p hj => ?_⟩
      · by_cases hji : j = i
        · subst hji
          simp at hj
        · simp only [Function.update_of_ne hji] at hj
          exact hidle j l' hj
      · by_cases hji : j = i
        · subst hji
          simp only [Function.update_self, Client.busy.injEq] at hj
          obtain ⟨rfl, rfl, rfl, rfl⟩ := hj
          exact ⟨t₀, hidle j l hi, hcode l op⟩
        · simp only [Function.update_of_ne hji] at hj
          exact hbusy j l' op' h p hj
    | @call s cl i l op h d k r s' hi hserve =>
      have hlast : Label.call i l op ⟨d, s, r, s'⟩ ∈ tr ++ [.call i l op ⟨d, s, r, s'⟩] :=
        List.mem_append_right _ (List.mem_singleton.mpr rfl)
      refine ⟨fun j l' hj => ?_, fun j l' op' h' p hj => ?_⟩
      · by_cases hji : j = i
        · subst hji
          simp at hj
        · simp only [Function.update_of_ne hji] at hj
          exact hother j i l op _ t₀ hji hlast hserve (hidle j l' hj)
      · by_cases hji : j = i
        · subst hji
          simp only [Function.update_self, Client.busy.injEq] at hj
          obtain ⟨rfl, rfl, rfl, rfl⟩ := hj
          obtain ⟨t, hJ, hallowed, hrest⟩ := hbusy j l op h _ hi
          exact ⟨_, hown j l op _ t hlast hserve hallowed hJ, hrest r⟩
        · simp only [Function.update_of_ne hji] at hj
          obtain ⟨t, hJ, hp⟩ := hbusy j l' op' h' p hj
          exact ⟨t, hother j i l op _ t hji hlast hserve hJ, hp⟩
    | @finish s cl i l op h a hi =>
      refine ⟨fun j l' hj => ?_, fun j l' op' h' p hj => ?_⟩
      · by_cases hji : j = i
        · subst hji
          obtain ⟨t, hJ, ht⟩ := hbusy j l op h _ hi
          obtain rfl : t = t₀ := ht
          exact hJ
        · simp only [Function.update_of_ne hji] at hj
          exact hidle j l' hj
      · by_cases hji : j = i
        · subst hji
          simp at hj
        · simp only [Function.update_of_ne hji] at hj
          exact hbusy j l' op' h' p hj

end System

end Library
