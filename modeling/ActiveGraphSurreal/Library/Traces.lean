import ActiveGraphSurreal.Library.Clients

/-!
# Traces

Runs can be put together, and the calls of an operation are labels of the trace since a state
in which its client had no operation.
-/

namespace Library

/-- The operation that a step belongs to. -/
def Label.op {ι ℓ Op C : Type} {A : C → Type} {α σ : Type} : Label ι ℓ Op C A α σ → Op
  | .start _ _ op | .call _ _ op _ | .finish _ _ op _ _ => op

/-- The calls of a run against a function are answered by it. -/
lemma Prog.history_answered {C : Type} {A : C → Type} {α σ : Type} (f : (c : C) → σ → A c × σ) (p : Prog C A α) (s : σ)
    {rec : CallRec C A σ} (h : rec ∈ p.history f s) :
    (rec.answer, rec.after) = f rec.call rec.before := by
  induction p generalizing s with
  | done a => exact absurd h List.not_mem_nil
  | call c k ih =>
    rcases List.mem_cons.mp h with rfl | h
    · rfl
    · exact ih _ _ h

namespace System

variable {ι ℓ Op C : Type} {A : C → Type} {α σ : Type} [DecidableEq ι]
  {S : System ι ℓ Op C A α σ}

lemma Run.append {c₀ c₁ c₂ : Config ι ℓ Op C A α σ} {a b : List (Label ι ℓ Op C A α σ)}
    (h₁ : Run S c₀ a c₁) (h₂ : Run S c₁ b c₂) : Run S c₀ (a ++ b) c₂ := by
  induction h₂ with
  | nil =>
    rw [List.append_nil]
    exact h₁
  | snoc hr hs ih =>
    rw [← List.append_assoc]
    exact .snoc ih hs

/-- The steps of a run that goes on from another respect a preorder. -/
theorem Run.steps {c₀ c c' : Config ι ℓ Op C A α σ} {a b : List (Label ι ℓ Op C A α σ)}
    {R : σ → σ → Prop} (hrefl : ∀ s, R s s) (htrans : ∀ a b c, R a b → R b c → R a c)
    {P : Label ι ℓ Op C A α σ → Prop}
    (hstep : ∀ tr d e d', Run S c₀ tr d → Step S d e d' → P e → R d.shared d'.shared)
    (h₁ : Run S c₀ a c) (h₂ : Run S c b c') (hb : ∀ e ∈ b, P e) : R c.shared c'.shared := by
  induction h₂ with
  | nil => exact hrefl _
  | @snoc tr d e d' hr hs ih =>
    have hfirst : R c.shared d.shared := ih fun e' he' => hb e' (List.mem_append_left _ he')
    have he : P e := hb e (List.mem_append_right _ (List.mem_singleton.mpr rfl))
    exact htrans _ _ _ hfirst (hstep _ _ _ _ (h₁.append hr) hs he)

/-- The states around a label of a run. -/
theorem Run.around {c c' : Config ι ℓ Op C A α σ} {front rest : List (Label ι ℓ Op C A α σ)}
    {e : Label ι ℓ Op C A α σ} (hr : Run S c (front ++ e :: rest) c') :
    ∃ d d', Run S c front d ∧ Step S d e d' ∧ Run S d' rest c' := by
  obtain ⟨d', hfirst, hrest⟩ := hr.split (a := front ++ [e]) (b := rest) (by simp)
  generalize htr : front ++ [e] = tr at hfirst
  cases hfirst with
  | nil => simp at htr
  | @snoc tr d e' _ hr hs =>
    obtain ⟨rfl, hlast⟩ := List.append_inj' htr rfl
    obtain rfl := List.singleton_inj.mp hlast
    exact ⟨d, d', hr, hs, hrest⟩

/-- A client starts its operations when it has none. -/
lemma Run.start_idle {c c' : Config ι ℓ Op C A α σ} {tr : List (Label ι ℓ Op C A α σ)} {i : ι}
    {l : ℓ} {op : Op} (hr : Run S c (.start i l op :: tr) c') : c.client i = .idle l := by
  have hcut : Run S c ([] ++ .start i l op :: tr) c' := hr
  obtain ⟨d, d', hnone, hs, -⟩ := hcut.around
  have hsame : d = c := by
    generalize hnil : ([] : List (Label ι ℓ Op C A α σ)) = front at hnone
    cases hnone with
    | nil => rfl
    | snoc hr hs => simp at hnil
  subst hsame
  cases hs with
  | start op hi => exact hi

/-- The client has no operation that began before the trace. -/
theorem Run.history_since {c c' : Config ι ℓ Op C A α σ} {tr : List (Label ι ℓ Op C A α σ)}
    (hr : Run S c tr c') {i : ι} {l₀ : ℓ} (hidle : c.client i = .idle l₀) :
    (∀ l op h p, c'.client i = .busy l op h p → ∀ rec ∈ h, .call i l op rec ∈ tr) ∧
    ∀ l op h a, .finish i l op h a ∈ tr → ∀ rec ∈ h, .call i l op rec ∈ tr := by
  induction hr with
  | nil =>
    refine ⟨fun l op h p hbusy => ?_, by simp⟩
    rw [hidle] at hbusy
    cases hbusy
  | @snoc tr c₁ e c₂ hr hs ih =>
    obtain ⟨hbusy, hfinish⟩ := ih
    have hearlier : ∀ l op h a, Label.finish i l op h a ∈ tr →
        ∀ rec ∈ h, .call i l op rec ∈ tr ++ [e] := by
      intro l op h a hmem rec hrec
      exact List.mem_append_left _ (hfinish l op h a hmem rec hrec)
    have hother : ∀ {cl : Client ℓ Op C A α σ}, c₂.client = Function.update c₁.client e.client cl →
        i ≠ e.client → ∀ l op h p, c₂.client i = .busy l op h p →
        ∀ rec ∈ h, .call i l op rec ∈ tr ++ [e] := by
      intro cl hc hi l op h p hp rec hrec
      rw [hc, Function.update_of_ne hi] at hp
      exact List.mem_append_left _ (hbusy l op h p hp rec hrec)
    cases hs with
    | @start s cl j l op hj =>
      refine ⟨?_, ?_⟩
      · by_cases hi : i = j
        · subst hi
          intro l' op' h p hp
          simp only [Function.update_self, Client.busy.injEq] at hp
          obtain ⟨rfl, rfl, rfl, rfl⟩ := hp
          simp
        · exact hother rfl hi
      · intro l' op' h a hmem
        rcases List.mem_append.mp hmem with hmem | hmem
        · exact hearlier l' op' h a hmem
        · simp at hmem
    | @call s cl j l op h d k r s' hj hserve =>
      refine ⟨?_, ?_⟩
      · by_cases hi : i = j
        · subst hi
          intro l' op' h' p hp
          simp only [Function.update_self, Client.busy.injEq] at hp
          obtain ⟨rfl, rfl, rfl, rfl⟩ := hp
          intro rec hrec
          rcases List.mem_append.mp hrec with hrec | hrec
          · exact List.mem_append_left _ (hbusy l op h _ hj rec hrec)
          · rw [List.mem_singleton.mp hrec]
            exact List.mem_append_right _ (List.mem_singleton.mpr rfl)
        · exact hother rfl hi
      · intro l' op' h' a hmem
        rcases List.mem_append.mp hmem with hmem | hmem
        · exact hearlier l' op' h' a hmem
        · simp at hmem
    | @finish s cl j l op h a hj =>
      refine ⟨?_, ?_⟩
      · by_cases hi : i = j
        · subst hi
          intro l' op' h' p hp
          simp at hp
        · exact hother rfl hi
      · intro l' op' h' a' hmem
        rcases List.mem_append.mp hmem with hmem | hmem
        · exact hearlier l' op' h' a' hmem
        · have hlast := List.mem_singleton.mp hmem
          simp only [Label.finish.injEq] at hlast
          obtain ⟨rfl, rfl, rfl, rfl, rfl⟩ := hlast
          intro rec hrec
          exact List.mem_append_left _ (hbusy _ _ _ _ hj rec hrec)

/-- A client without an operation can run one alone, where the server can answer as `f` does. -/
theorem Run.operation {f : ι → (c : C) → σ → A c × σ}
    (hf : ∀ i c s, S.serve i c s (f i c s).1 (f i c s).2) {c₀ c : Config ι ℓ Op C A α σ}
    {tr : List (Label ι ℓ Op C A α σ)} (hr : Run S c₀ tr c) {i : ι} {l : ℓ}
    (hidle : c.client i = .idle l) (op : Op) :
    Run S c₀ (tr ++ .start i l op :: (((S.code l op).history (f i) c.shared).map (.call i l op) ++
        [.finish i l op ((S.code l op).history (f i) c.shared)
          ((S.code l op).run (f i) c.shared).1]))
      ⟨((S.code l op).run (f i) c.shared).2, Function.update c.client i
        (.idle (S.finish l op ((S.code l op).history (f i) c.shared)
          ((S.code l op).run (f i) c.shared).1))⟩ := by
  obtain ⟨s, cl⟩ := c
  have hstart := Run.snoc hr (.start op hidle)
  have hrun := hstart.exec (Function.update_self ..) (Prog.exec_run (hf i) (S.code l op) s)
  rw [Function.update_idem, List.append_assoc] at hrun
  exact hrun

end System

end Library
