import ActiveGraphSurreal.Library.CallTree

/-!
# Clients of one server

Every client owns a local state and runs one program at a time; the programs of different
clients interleave at the granularity of single calls. A `Contract` names what the idle
clients know, what a client relies on and what its calls guarantee. `Contract.sound`
carries it over every run.
-/

namespace Library

open Prog

/-- `code l op` is the program of the operation `op` on the local state `l`; `finish` gives
the local state after it from the history of its calls and its result. -/
structure System (ι ℓ Op C : Type) (A : C → Type) (α σ : Type) where
  serve : ι → Server C A σ
  code : ℓ → Op → Prog C A α
  finish : ℓ → Op → List (CallRec C A σ) → α → ℓ

inductive Client (ℓ Op C : Type) (A : C → Type) (α σ : Type) where
  | idle (l : ℓ)
  | busy (l : ℓ) (op : Op) (h : List (CallRec C A σ)) (p : Prog C A α)

structure Config (ι ℓ Op C : Type) (A : C → Type) (α σ : Type) where
  shared : σ
  client : ι → Client ℓ Op C A α σ

/-- What happens in one step. -/
inductive Label (ι ℓ Op C : Type) (A : C → Type) (α σ : Type) where
  | start (i : ι) (l : ℓ) (op : Op)
  | call (i : ι) (l : ℓ) (op : Op) (rec : CallRec C A σ)
  | finish (i : ι) (l : ℓ) (op : Op) (h : List (CallRec C A σ)) (a : α)

variable {ι ℓ Op C : Type} {A : C → Type} {α σ : Type} [DecidableEq ι]

/-- Whose step it is. -/
def Label.client : Label ι ℓ Op C A α σ → ι
  | .start i _ _ | .call i _ _ _ | .finish i _ _ _ _ => i

namespace System

/-- One step of one client. -/
inductive Step (S : System ι ℓ Op C A α σ) :
    Config ι ℓ Op C A α σ → Label ι ℓ Op C A α σ → Config ι ℓ Op C A α σ → Prop
  | start {s cl i l} (op : Op) (hi : cl i = .idle l) :
      Step S ⟨s, cl⟩ (.start i l op) ⟨s, Function.update cl i (.busy l op [] (S.code l op))⟩
  | call {s cl i l op h c k r s'} (hi : cl i = .busy l op h (.call c k))
      (hs : S.serve i c s r s') :
      Step S ⟨s, cl⟩ (.call i l op ⟨c, s, r, s'⟩)
        ⟨s', Function.update cl i (.busy l op (h ++ [⟨c, s, r, s'⟩]) (k r))⟩
  | finish {s cl i l op h a} (hi : cl i = .busy l op h (.done a)) :
      Step S ⟨s, cl⟩ (.finish i l op h a) ⟨s, Function.update cl i (.idle (S.finish l op h a))⟩

/-- A run with its trace. -/
inductive Run (S : System ι ℓ Op C A α σ) (c₀ : Config ι ℓ Op C A α σ) :
    List (Label ι ℓ Op C A α σ) → Config ι ℓ Op C A α σ → Prop
  | nil : Run S c₀ [] c₀
  | snoc {tr c e c'} (hr : Run S c₀ tr c) (hs : Step S c e c') : Run S c₀ (tr ++ [e]) c'

omit [DecidableEq ι] in
lemma append_eq_concat {α : Type} {xs ys zs : List α} {a : α} (h : xs ++ ys = zs ++ [a]) :
    (ys = [] ∧ xs = zs ++ [a]) ∨ ∃ ys', ys = ys' ++ [a] ∧ xs ++ ys' = zs := by
  rcases List.eq_nil_or_concat' ys with rfl | ⟨ys', b, rfl⟩
  · exact .inl ⟨rfl, by simpa using h⟩
  · rw [← List.append_assoc] at h
    obtain ⟨hfront, hlast⟩ := List.append_inj' h rfl
    obtain rfl := List.singleton_inj.mp hlast
    exact .inr ⟨ys', rfl, hfront⟩

/-- A run goes through the end of each part of its trace. -/
theorem Run.split {S : System ι ℓ Op C A α σ} {c₀ c : Config ι ℓ Op C A α σ}
    {tr a b : List (Label ι ℓ Op C A α σ)} (hr : Run S c₀ tr c) (htr : a ++ b = tr) :
    ∃ c₁, Run S c₀ a c₁ ∧ Run S c₁ b c := by
  induction hr generalizing b with
  | nil =>
    obtain ⟨rfl, rfl⟩ := List.append_eq_nil_iff.mp htr
    exact ⟨c₀, .nil, .nil⟩
  | @snoc tr c e c' hr hs ih =>
    rcases append_eq_concat htr with ⟨rfl, rfl⟩ | ⟨ys, rfl, hfront⟩
    · exact ⟨c', .snoc hr hs, .nil⟩
    · obtain ⟨c₁, hr₁, hr₂⟩ := ih hfront
      exact ⟨c₁, hr₁, .snoc hr₂ hs⟩

/-- A run whose calls respect a preorder respects it. -/
theorem Run.path {S : System ι ℓ Op C A α σ} {R : σ → σ → Prop} (hrefl : ∀ s, R s s)
    (htrans : ∀ a b c, R a b → R b c → R a c) {c c' : Config ι ℓ Op C A α σ}
    {tr : List (Label ι ℓ Op C A α σ)} (hr : Run S c tr c')
    (hcalls : ∀ i l op rec, .call i l op rec ∈ tr → R rec.before rec.after) :
    R c.shared c'.shared := by
  induction hr with
  | nil => exact hrefl _
  | @snoc tr d e d' hr hs ih =>
    have hfirst := ih fun i l op rec hmem => hcalls i l op rec (List.mem_append_left _ hmem)
    refine htrans _ _ _ hfirst ?_
    cases hs with
    | start op hi => exact hrefl _
    | call hi hserve => exact hcalls _ _ _ _ (List.mem_append_right _ (List.mem_cons_self ..))
    | finish hi => exact hrefl _

/-- The states around a call of a run. -/
lemma Run.call_cons {S : System ι ℓ Op C A α σ} {c c' : Config ι ℓ Op C A α σ}
    {tr : List (Label ι ℓ Op C A α σ)} {i : ι} {l : ℓ} {op : Op} {rec : CallRec C A σ}
    (hr : Run S c (.call i l op rec :: tr) c') : c.shared = rec.before ∧
      S.serve i rec.call rec.before rec.answer rec.after ∧
      ∃ d, d.shared = rec.after ∧ Run S d tr c' := by
  obtain ⟨d, hr₁, hr₂⟩ := hr.split (a := [.call i l op rec]) rfl
  generalize htr : [Label.call i l op rec] = tr₁ at hr₁
  cases hr₁ with
  | nil => simp at htr
  | @snoc tr₀ b e _ hr₀ hs =>
    have hcut : [] ++ [Label.call i l op rec] = tr₀ ++ [e] := htr
    obtain ⟨rfl, hlast⟩ := List.append_inj' hcut rfl
    obtain rfl := List.singleton_inj.mp hlast
    generalize htr₀ : ([] : List (Label ι ℓ Op C A α σ)) = tr₀ at hr₀
    cases hr₀ with
    | nil =>
      cases hs with
      | call hi hserve => exact ⟨rfl, hserve, _, rfl, hr₂⟩
    | snoc => simp at htr₀

/-! ### The call before -/

/-- The last call of a client in a trace, within its operation. -/
def LastCall (tr : List (Label ι ℓ Op C A α σ)) (i : ι) (l : ℓ) (op : Op) :
    Option (Sigma A) → Prop
  | none => True
  | some a => ∃ tr₁ rec tr₂, tr = tr₁ ++ .call i l op rec :: tr₂ ∧ a = ⟨rec.call, rec.answer⟩ ∧
      ∀ e ∈ tr₂, e.client ≠ i

omit [DecidableEq ι] in
lemma LastCall.other {tr : List (Label ι ℓ Op C A α σ)} {i : ι} {l : ℓ} {op : Op}
    {last : Option (Sigma A)} (h : LastCall tr i l op last) {e : Label ι ℓ Op C A α σ}
    (he : e.client ≠ i) : LastCall (tr ++ [e]) i l op last := by
  cases last with
  | none => trivial
  | some a =>
    obtain ⟨tr₁, rec, tr₂, rfl, ha, htr₂⟩ := h
    refine ⟨tr₁, rec, tr₂ ++ [e], by simp, ha, ?_⟩
    intro e' he'
    rcases List.mem_append.mp he' with he' | he'
    · exact htr₂ e' he'
    · rw [List.mem_singleton.mp he']
      exact he

/-- What a program promises about each call and the one before it holds of the calls in
every run. -/
theorem Run.follows {S : System ι ℓ Op C A α σ} {P : Option (Sigma A) → C → Prop}
    (hP : ∀ l op, (S.code l op).Follows P (fun _ _ => True) none) {s₀ : σ} {l₀ : ι → ℓ}
    {tr : List (Label ι ℓ Op C A α σ)} {c : Config ι ℓ Op C A α σ}
    (hr : Run S ⟨s₀, fun i => .idle (l₀ i)⟩ tr c) :
    (∀ i l op h p, c.client i = .busy l op h p → ∃ last, LastCall tr i l op last ∧
      p.Follows P (fun _ _ => True) last) ∧
    ∀ tr₁ i l op rec tr₂, tr = tr₁ ++ .call i l op rec :: tr₂ → ∃ last, LastCall tr₁ i l op last ∧
      P last rec.call := by
  induction hr with
  | nil => exact ⟨by simp, by simp⟩
  | @snoc tr c e c' hr hs ih =>
    obtain ⟨hbusy, hcalls⟩ := ih
    have hother : ∀ {cl : Client ℓ Op C A α σ}, c'.client = Function.update c.client e.client cl →
        ∀ j, j ≠ e.client → ∀ l op h p, c'.client j = .busy l op h p →
        ∃ last, LastCall (tr ++ [e]) j l op last ∧ p.Follows P (fun _ _ => True) last := by
      intro cl hc j hj l op h p hp
      rw [hc, Function.update_of_ne hj] at hp
      obtain ⟨last, hlast, hfollows⟩ := hbusy j l op h p hp
      exact ⟨last, hlast.other (Ne.symm hj), hfollows⟩
    -- the new call is the last label of the trace
    have hlast : (∀ i l op rec, e = .call i l op rec → ∃ last, LastCall tr i l op last ∧
        P last rec.call) → ∀ tr₁ i l op rec tr₂, tr ++ [e] = tr₁ ++ .call i l op rec :: tr₂ →
        ∃ last, LastCall tr₁ i l op last ∧ P last rec.call := by
      intro he tr₁ i l op rec tr₂ htr
      rcases List.eq_nil_or_concat' tr₂ with rfl | ⟨tr₃, e', rfl⟩
      · obtain ⟨rfl, hsingle⟩ := List.append_inj' htr rfl
        exact he i l op rec (List.singleton_inj.mp hsingle)
      · have hcut : tr ++ [e] = (tr₁ ++ .call i l op rec :: tr₃) ++ [e'] := by
          rw [htr]
          simp
        obtain ⟨rfl, -⟩ := List.append_inj' hcut rfl
        exact hcalls tr₁ i l op rec tr₃ rfl
    cases hs with
    | @start s cl i l op hi =>
      refine ⟨fun j l' op' h p hp => ?_, hlast nofun⟩
      by_cases hj : j = i
      · subst hj
        simp only [Function.update_self, Client.busy.injEq] at hp
        obtain ⟨rfl, rfl, rfl, rfl⟩ := hp
        exact ⟨none, trivial, hP _ _⟩
      · exact hother rfl j hj l' op' h p hp
    | @call s cl i l op h d k r s' hi hserve =>
      obtain ⟨last, hlastCall, hfollows⟩ := hbusy i l op h _ hi
      refine ⟨fun j l' op' h' p hp => ?_, hlast ?_⟩
      · by_cases hj : j = i
        · subst hj
          simp only [Function.update_self, Client.busy.injEq] at hp
          obtain ⟨rfl, rfl, rfl, rfl⟩ := hp
          exact ⟨some ⟨d, r⟩, ⟨tr, _, [], rfl, rfl, by simp⟩, hfollows.2 r⟩
        · exact hother rfl j hj l' op' h' p hp
      · rintro i' l' op' rec hrec
        cases hrec
        exact ⟨last, hlastCall, hfollows.1⟩
    | @finish s cl i l op h a hi =>
      refine ⟨fun j l' op' h' p hp => ?_, hlast nofun⟩
      by_cases hj : j = i
      · subst hj
        simp at hp
      · exact hother rfl j hj l' op' h' p hp

/-! ### Schedules -/

/-- What a schedule lets one client do: start an operation, make one call, or go on to the
end of its operation. -/
inductive Order (ι Op : Type) where
  | start (i : ι) (op : Op)
  | step (i : ι)
  | finish (i : ι)

variable (S : System ι ℓ Op C A α σ)

lemma Run.exec {S : System ι ℓ Op C A α σ} {c₀ : Config ι ℓ Op C A α σ}
    {tr : List (Label ι ℓ Op C A α σ)} {s s' : σ} {cl : ι → Client ℓ Op C A α σ} {i : ι} {l : ℓ}
    {op : Op} {h h' : List (CallRec C A σ)} {p : Prog C A α} {a : α} (hr : Run S c₀ tr ⟨s, cl⟩)
    (hi : cl i = .busy l op h p) (he : Exec (S.serve i) p s h' a s') :
    Run S c₀ (tr ++ (h'.map (.call i l op) ++ [.finish i l op (h ++ h') a]))
      ⟨s', Function.update cl i (.idle (S.finish l op (h ++ h') a))⟩ := by
  induction he generalizing tr cl h with
  | done a s =>
    have hfinish := Run.snoc hr (.finish hi)
    simpa using hfinish
  | @call c k s s₁ s₂ r h' a hs hk ih =>
    have hcall := ih (Run.snoc hr (.call hi hs)) (Function.update_self ..)
    rw [Function.update_idem] at hcall
    simpa using hcall

/-- One order, if the client can follow it. -/
def follow (f : ι → (c : C) → σ → A c × σ) (c : Config ι ℓ Op C A α σ) :
    Order ι Op → List (Label ι ℓ Op C A α σ) × Config ι ℓ Op C A α σ
  | .start i op =>
    match c.client i with
    | .idle l => ([.start i l op],
        ⟨c.shared, Function.update c.client i (.busy l op [] (S.code l op))⟩)
    | .busy .. => ([], c)
  | .step i =>
    match c.client i with
    | .busy l op h (.call cl k) =>
      let answer := f i cl c.shared
      let call : CallRec C A σ := ⟨cl, c.shared, answer.1, answer.2⟩
      ([.call i l op call],
        ⟨answer.2, Function.update c.client i (.busy l op (h ++ [call]) (k answer.1))⟩)
    | _ => ([], c)
  | .finish i =>
    match c.client i with
    | .busy l op h p =>
      let h' := p.history (f i) c.shared
      let result := p.run (f i) c.shared
      (h'.map (.call i l op) ++ [.finish i l op (h ++ h') result.1],
        ⟨result.2, Function.update c.client i (.idle (S.finish l op (h ++ h') result.1))⟩)
    | .idle _ => ([], c)

/-- The trace and the end of a schedule. -/
def schedule (f : ι → (c : C) → σ → A c × σ) :
    Config ι ℓ Op C A α σ → List (Order ι Op) →
      List (Label ι ℓ Op C A α σ) × Config ι ℓ Op C A α σ
  | c, [] => ([], c)
  | c, o :: os =>
    let next := S.follow f c o
    let rest := schedule f next.2 os
    (next.1 ++ rest.1, rest.2)

variable {S}

lemma Run.follow {c₀ c : Config ι ℓ Op C A α σ} {tr : List (Label ι ℓ Op C A α σ)}
    {f : ι → (c : C) → σ → A c × σ} (hf : ∀ i c s, S.serve i c s (f i c s).1 (f i c s).2)
    (hr : Run S c₀ tr c) (o : Order ι Op) :
    Run S c₀ (tr ++ (S.follow f c o).1) (S.follow f c o).2 := by
  have hstay : Run S c₀ (tr ++ []) c := by
    rw [List.append_nil]
    exact hr
  obtain ⟨s, cl⟩ := c
  cases o with
  | start i op =>
    unfold System.follow
    simp only
    split
    · next l hi => exact .snoc hr (.start op hi)
    · exact hstay
  | step i =>
    unfold System.follow
    simp only
    split
    · next l op h d k hi => exact .snoc hr (.call hi (hf i d s))
    · exact hstay
  | finish i =>
    unfold System.follow
    simp only
    split
    · next l op h p hi => exact hr.exec hi (Prog.exec_run (hf i) p s)
    · exact hstay

/-- Every schedule is a run of a server that can answer as `f` does. -/
theorem Run.schedule {c₀ c : Config ι ℓ Op C A α σ} {tr : List (Label ι ℓ Op C A α σ)}
    {f : ι → (c : C) → σ → A c × σ} (hf : ∀ i c s, S.serve i c s (f i c s).1 (f i c s).2)
    (hr : Run S c₀ tr c) (os : List (Order ι Op)) :
    Run S c₀ (tr ++ (S.schedule f c os).1) (S.schedule f c os).2 := by
  induction os generalizing c tr with
  | nil =>
    unfold System.schedule
    rw [List.append_nil]
    exact hr
  | cons o os ih =>
    have hrest := ih (hr.follow hf o)
    unfold System.schedule
    rw [← List.append_assoc]
    exact hrest

end System

/-- The obligations of a system's code under rely and guarantee. -/
structure Contract (S : System ι ℓ Op C A α σ) where
  inv : σ → Prop
  idle : ι → ℓ → σ → Prop
  rely : ι → σ → σ → Prop
  guar : ι → ℓ → Op → CallRec C A σ → Prop
  post : ι → ℓ → Op → List (CallRec C A σ) → α → σ → Prop
  rely_refl : ∀ i s, inv s → rely i s s
  rely_trans : ∀ i a b c, rely i a b → rely i b c → rely i a c
  idle_rely : ∀ i l s s', idle i l s → rely i s s' → idle i l s'
  post_rely : ∀ i l op h a s s', post i l op h a s → rely i s s' → post i l op h a s'
  guar_inv : ∀ i l op rec, guar i l op rec → inv rec.before → inv rec.after
  guar_rely : ∀ i j l op rec, i ≠ j → guar i l op rec → inv rec.before →
    rely j rec.before rec.after
  safe : ∀ i l op s, idle i l s → inv s →
    Safe (S.serve i) (rely i) (guar i l op) (post i l op) [] (S.code l op) s
  next : ∀ i l op h a s, post i l op h a s → idle i (S.finish l op h a) s

namespace Contract

variable {S : System ι ℓ Op C A α σ} (K : Contract S)

/-- What holds of a client between two steps. -/
def ClientOk (i : ι) (s : σ) : Client ℓ Op C A α σ → Prop
  | .idle l => K.idle i l s
  | .busy l op h p => Safe (S.serve i) (K.rely i) (K.guar i l op) (K.post i l op) h p s

/-- What holds of a step. -/
def LabelOk : Label ι ℓ Op C A α σ → Prop
  | .start i l _ => ∃ s, K.inv s ∧ K.idle i l s
  | .call i l op rec => K.inv rec.before ∧ K.guar i l op rec
  | .finish i l op h a => ∃ s, K.inv s ∧ K.post i l op h a s

def Ok (c : Config ι ℓ Op C A α σ) : Prop :=
  K.inv c.shared ∧ ∀ i, K.ClientOk i c.shared (c.client i)

omit [DecidableEq ι] in
lemma clientOk_rely {i : ι} {s s' : σ} {cl : Client ℓ Op C A α σ} (h : K.ClientOk i s cl)
    (hR : K.rely i s s') : K.ClientOk i s' cl := by
  cases cl with
  | idle l => exact K.idle_rely i l s s' h hR
  | busy l op hist p =>
    exact Safe.rely (K.rely_trans i) (fun h a s s' hq hR => K.post_rely i l op h a s s' hq hR) h hR

theorem step_ok {c c' : Config ι ℓ Op C A α σ} {e : Label ι ℓ Op C A α σ} (hc : K.Ok c)
    (hs : S.Step c e c') : K.Ok c' ∧ K.LabelOk e := by
  obtain ⟨hinv, hcl⟩ := hc
  cases hs with
  | @start s cl i l op hi =>
    have hl : K.idle i l s := by simpa [hi, ClientOk] using hcl i
    refine ⟨⟨hinv, fun j => ?_⟩, s, hinv, hl⟩
    by_cases hj : j = i
    · subst hj
      simpa [ClientOk] using K.safe j l op s hl hinv
    · simpa [hj] using hcl j
  | @call s cl i l op h c k r s' hi hserve =>
    have hsafe : K.ClientOk i s (.busy l op h (.call c k)) := by simpa [hi] using hcl i
    obtain ⟨hg, hrest⟩ := hsafe s (K.rely_refl i s hinv) r s' hserve
    refine ⟨⟨K.guar_inv i l op _ hg hinv, fun j => ?_⟩, hinv, hg⟩
    by_cases hj : j = i
    · subst hj
      simpa [ClientOk] using hrest
    · have hR := K.guar_rely i j l op _ (Ne.symm hj) hg hinv
      simpa [hj] using K.clientOk_rely (hcl j) hR
  | @finish s cl i l op h a hi =>
    have hpost : K.ClientOk i s (.busy l op h (.done a)) := by simpa [hi] using hcl i
    refine ⟨⟨hinv, fun j => ?_⟩, s, hinv, hpost⟩
    by_cases hj : j = i
    · subst hj
      simpa [ClientOk] using K.next j l op h a s hpost
    · simpa [hj] using hcl j

/-- A contract holds at every step of every run. -/
theorem sound {c₀ c : Config ι ℓ Op C A α σ} {tr : List (Label ι ℓ Op C A α σ)} (h₀ : K.Ok c₀)
    (hr : S.Run c₀ tr c) : K.Ok c ∧ ∀ e ∈ tr, K.LabelOk e := by
  induction hr with
  | nil => exact ⟨h₀, by simp⟩
  | snoc hr hs ih =>
    obtain ⟨hc, htr⟩ := ih
    obtain ⟨hc', he⟩ := K.step_ok hc hs
    refine ⟨hc', ?_⟩
    intro e' he'
    rcases List.mem_append.mp he' with he' | he'
    · exact htr e' he'
    · rw [List.mem_singleton.mp he']
      exact he

end Contract

end Library
