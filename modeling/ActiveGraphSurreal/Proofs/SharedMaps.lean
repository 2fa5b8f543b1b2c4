import ActiveGraphSurreal.Library.Traces
import ActiveGraphSurreal.Proofs.Concurrent

/-!
# Projections that are shared

The maps of all projections are the state of one atomic machine. In every run of graph stores
the tables hold the maps that the commits so far make, one commit one mutation. Each call
answers from the maps of one moment between its start and its end.
-/

namespace ActiveGraphSurreal

open Library

set_option linter.unusedSectionVars false

variable {F X : Type} [Json.ScalarText F]

/-! ### The atomic machine -/

/-- The maps of every projection, by its address. -/
abbrev Projections (F X : Type) := String × String → Maps F X

def Projections.after (all : Projections F X) (g : String × String) (m : Mutation F X) :
    Projections F X :=
  Function.update all g ((all g).after m)

/-- What a call leaves that makes a mutation: it makes it if it returns. -/
def Projections.effect {α : Type} (all : Projections F X) (g : String × String) :
    Option (Mutation F X) → Except PyErr α → Projections F X
  | some m, .ok _ => all.after g m
  | _, _ => all

open GraphStore (Lists) in
/-- What a call may answer on the maps of its projection. -/
def GraphCall.Answers (env : Env F X) (sdk : Sdk) (g : String × String) (maps : Maps F X) :
    (c : GraphCall F X) → Except PyErr c.Value → Prop
  | getObject id, r => r = (vertexKey env g id).map fun _ => maps.objects id
  | getRelation id, r => r = (relationKey env g id).map fun _ => maps.relations id
  | getPatch id, r => r = (patchKey env g id).map fun _ => maps.patches id
  | allObjects, r => ∃ objs, r = .ok objs ∧
      Lists (·.id) objs fun obj => maps.objects obj.id = some obj
  | allRelations, r => ∃ rels, r = .ok rels ∧
      Lists (·.id) rels fun rel => maps.relations rel.id = some rel
  | allPatches, r => ∃ patches, r = .ok patches ∧
      Lists (·.id) patches fun patch => maps.patches patch.id = some patch
  | findObjects objectType, r => ∃ objs, r = .ok objs ∧
      Lists (·.id) objs fun obj => maps.objects obj.id = some obj ∧ objectType.all (· = obj.type)
  | findObjectsInTypes types, r => ∃ objs, r = .ok objs ∧
      Lists (·.id) objs fun obj => maps.objects obj.id = some obj ∧ obj.type ∈ types
  | findRelations source target relationType, r => ∃ rels, r = .ok rels ∧
      Lists (·.id) rels fun rel => maps.relations rel.id = some rel ∧
        source.all (· = rel.source) ∧ target.all (· = rel.target) ∧ relationType.all (· = rel.type)
  | queryObjects plan, r => ∀ fulfils, (∀ obj, fulfils [] obj) →
      (∀ n ∈ plan.limit, 1 ≤ n ∧ n ≤ sdk.maxLimit) →
      ∃ objs result, r = .ok result ∧
        Lists (·.id) objs (fun obj => maps.objects obj.id = some obj) ∧
        (result.exists_ = none →
          limited plan.limit (result.candidates.filter (fulfils result.residualWhere)) =
            limited plan.limit (wanted fulfils plan objs)) ∧
        ∀ flag ∈ result.exists_, flag = !(wanted fulfils plan objs).isEmpty
  | putObject obj, r => (Mutation.putObject obj).Fits env g → r = .ok ()
  | removeObject id, r => (Mutation.removeObject id : Mutation F X).Fits env g → r = .ok ()
  | putRelation rel, r => (Mutation.putRelation rel).Fits env g → r = .ok ()
  | removeRelation id, r => (Mutation.removeRelation id : Mutation F X).Fits env g → r = .ok ()
  | putPatch patch, r => (Mutation.putPatch patch).Fits env g → r = .ok ()
  | removePatch id, r => (Mutation.removePatch id : Mutation F X).Fits env g → r = .ok ()
  -- these two make several statements that others can come between
  | neighborhood .., _ | clear, _ => False

/-- A commit makes the mutation of its call. -/
def Projections.step (all : Projections F X) : GraphLabel F X → Projections F X
  | .call _ store c rec =>
    if rec.after.log = rec.before.log then all
    else
      match c.1.mutation with
      | some m => all.after store.address m
      | none => all
  | _ => all

def Projections.along (all : Projections F X) (tr : List (GraphLabel F X)) : Projections F X :=
  tr.foldl Projections.step all

lemma along_snoc (all : Projections F X) (tr : List (GraphLabel F X)) (e : GraphLabel F X) :
    all.along (tr ++ [e]) = (all.along tr).step e := by
  unfold Projections.along
  rw [List.foldl_append]
  rfl

variable {env : Env F X} {sdk : Sdk} {lostCall lostAnswer : Prop} {i : Nat} {store : GraphStore}
  {c : GraphCall F X} {g : String × String} {s : Database} {t t' : Tables} {maps : Maps F X}
  {all : Projections F X}

/-! ### One moment of a call -/

lemma Represents.unique {maps' : Maps F X} (h : Represents env g t maps)
    (h' : Represents env g t maps') : maps = maps' := by
  obtain ⟨objects, relations, patches⟩ := maps
  obtain ⟨objects', relations', patches'⟩ := maps'
  have hobjects : objects = objects' := by
    funext id
    ext obj
    exact (h.object id obj).trans (h'.object id obj).symm
  have hrelations : relations = relations' := by
    funext id
    ext rel
    exact (h.relation id rel).trans (h'.relation id rel).symm
  have hpatches : patches = patches' := by
    funext id
    ext patch
    exact (h.patch id patch).trans (h'.patch id patch).symm
  rw [hobjects, hrelations, hpatches]

/-- The maps of a run need only its part and its vertices. -/
lemma Represents.of_part (h : Represents env g t maps) (hpart : t'.part g = t.part g)
    (hvertex : ∀ key, t.vertex.lookup key ≠ none → t'.vertex.lookup key ≠ none) :
    Represents env g t' maps := by
  have hobjects : t'.objectRows g.1 g.2 = t.objectRows g.1 g.2 := by
    rw [objectRows_part, objectRows_part, hpart]
  have hrelations : t'.relationRows g.1 g.2 = t.relationRows g.1 g.2 := by
    rw [relationRows_part, relationRows_part, hpart]
  have hpatches : t'.patchRows g.1 g.2 = t.patchRows g.1 g.2 := by
    rw [patchRows_part, patchRows_part, hpart]
  have hstays : ∀ key, (∃ vertex, t.vertex.lookup key = some vertex) →
      ∃ vertex, t'.vertex.lookup key = some vertex := by
    intro key hkey
    exact Option.ne_none_iff_exists'.mp (hvertex key (Option.ne_none_iff_exists'.mpr hkey))
  refine ⟨?_, ?_, ?_, ?_, ?_, ?_⟩
  · rw [hobjects]
    exact h.object
  · rw [hrelations]
    exact h.relation
  · rw [hpatches]
    exact h.patch
  · rw [hpatches]
    exact h.legible
  · rw [hrelations]
    exact fun row hrow => hstays _ (h.source row hrow)
  · rw [hrelations]
    exact fun row hrow => hstays _ (h.target row hrow)

variable (sdk i) in
/-- The methods of a run leave the parts of the others alone. -/
lemma alone_others (hsha : CollisionFree env) {α : Type} {m : Py GraphStore α}
    (hm : GraphStore.Inside env g false m) (ht : Sound env s.tables) (h : store.At env g)
    {g' : String × String} (hg : g' ≠ g) :
    (alone sdk i m store s).2.tables.part g' = s.tables.part g' := by
  have hkept : Kept (engine sdk) (Stmt.Inside env g)
      (fun t => Sound env t ∧ t.part g' = s.tables.part g') (Write.Bound env g) := by
    refine ⟨fun st t r ws hst ht hexec => ?_, fun t w ht hw => ?_⟩
    · exact (kept_bound hsha sdk g).exec st t r ws hst.toBound ht.1 hexec
    · refine ⟨(kept_bound hsha sdk g).apply t w ht.1 hw, ?_⟩
      exact (part_apply_other hsha ht.1.toPlaced hw.within hg).trans ht.2
  have hexec : (m store).Exec ((engine sdk).serve (faults True False) i) s _ _ _ :=
    exec_alone (m store) s
  exact ((hm store false h nofun).exec hkept hexec ⟨ht, rfl⟩ nofun).1.2

lemma answers_of_mirrors {r : Except PyErr c.Value} (hc : c.mutation = none) (hsingle : c.Single)
    (hm : Mirrors env sdk i g store s maps) (hr : (alone sdk i (c.code env) store s).1.1 = r) :
    c.Answers env sdk g maps r := by
  subst hr
  cases c with
  | getObject id => exact hm.getObject id
  | getRelation id => exact hm.getRelation id
  | getPatch id => exact hm.getPatch id
  | allObjects => exact hm.allObjects
  | allRelations => exact hm.allRelations
  | allPatches => exact hm.allPatches
  | findObjects objectType => exact hm.findObjects objectType
  | findObjectsInTypes types => exact hm.findObjectsInTypes types
  | findRelations source target relationType => exact hm.findRelations source target relationType
  | queryObjects plan =>
    intro fulfils hnone hlimit
    obtain ⟨objs, hobjs, hlists⟩ := hm.allObjects
    obtain ⟨objs', result, hobjs', hresult, hcandidates, hflag⟩ :=
      hm.queryObjects fulfils plan hnone hlimit
    obtain rfl := Except.ok.inj (hobjs.symm.trans hobjs')
    exact ⟨objs, result, hresult, hlists, hcandidates, hflag⟩
  | neighborhood objectId depth => exact hsingle.elim
  | _ => cases hc

/-- A mutation that is carried out changes the maps of its projection only. -/
lemma represents_commit (hsha : CollisionFree env) (henc : EncodesJson env)
    (ht : Sound env s.tables) (h : store.Readable env g s.tables) (hc : c ≠ .clear)
    {m : Mutation F X} (hm : c.mutation = some m) (hnormal : m.Normal)
    (hmaps : ∀ g', Represents env g' s.tables (all g')) {ws : List Write}
    (hplan : c.plan env sdk store s.tables = .ok ws) (g' : String × String) :
    Represents env g' ((engine sdk).applyAll ws s.tables) (all.after g m g') := by
  have hclear : m ≠ .clear := by
    rintro rfl
    cases c <;> first | exact hc rfl | cases hm
  have hlawful := lawful_plan hsha ht h hc hplan
  unfold GraphCall.plan at hplan
  rw [hm] at hplan
  have hplan' : m.plan env sdk store s.tables = .ok ws := hplan
  unfold Projections.after
  by_cases hg : g' = g
  · subst hg
    rw [Function.update_self]
    exact represents_plan hsha ht.toPlaced (hmaps g') h.toAt (hnormal.readsAs henc) hclear hplan'
  · rw [Function.update_of_ne hg]
    have htables := (does_mutation sdk 0 hsha ht.toPlaced h hclear).tables
    rw [hplan'] at htables
    have hothers := alone_others sdk 0 hsha (inside_mutation m) ht h.toAt hg
    rw [htables] at hothers
    exact (hmaps g').of_part hothers hlawful.2.1.2

variable (sdk i) in
/-- What a call does that acts alone on one state, seen on the maps. -/
lemma moment (hsha : CollisionFree env) (henc : EncodesJson env) (ht : Sound env s.tables)
    (h : store.Readable env g s.tables) (hsingle : c.Single) (hnormal : ∀ m ∈ c.mutation, m.Normal)
    (hmaps : ∀ g', Represents env g' s.tables (all g')) :
    c.Answers env sdk g (all g) (alone sdk i (c.code env) store s).1.1 ∧ (c.mutation ≠ none →
      ∀ g', Represents env g' (alone sdk i (c.code env) store s).2.tables
        (all.effect g c.mutation (alone sdk i (c.code env) store s).1.1 g')) := by
  have hmutation : ∀ m : Mutation F X, m ≠ .clear → m.Normal →
      (∀ ws, m.plan env sdk store s.tables = .ok ws →
        ∀ g', Represents env g' ((engine sdk).applyAll ws s.tables) (all.after g m g')) →
      (m.Fits env g → (alone sdk i (m.code env) store s).1.1 = .ok ()) ∧
        ∀ g', Represents env g' (alone sdk i (m.code env) store s).2.tables
          (all.effect g (some m) (alone sdk i (m.code env) store s).1.1 g') := by
    intro m hclear hn hcommit
    have hdoes := does_mutation sdk i hsha ht.toPlaced h hclear
    have hanswer := congrArg Prod.fst hdoes.answer
    rw [hdoes.tables, hanswer]
    constructor
    · intro hfits
      obtain ⟨ws, hplan⟩ := hfits.plan henc h.toAt hn s.tables
      rw [hplan]
      rfl
    · cases hplan : m.plan env sdk store s.tables with
      | error e => exact hmaps
      | ok ws => exact hcommit ws hplan
  have hc : c ≠ .clear := by
    rintro rfl
    exact hsingle
  have hcommit : ∀ m, c.mutation = some m → ∀ ws, c.plan env sdk store s.tables = .ok ws →
      ∀ g', Represents env g' ((engine sdk).applyAll ws s.tables) (all.after g m g') := by
    intro m hm ws hplan
    exact represents_commit hsha henc ht h hc hm (hnormal m hm) hmaps hplan
  cases c with
  | putObject obj =>
    obtain ⟨hfits, hall⟩ := hmutation (.putObject obj) (by simp) (hnormal _ rfl) (hcommit _ rfl)
    exact ⟨hfits, fun _ => hall⟩
  | removeObject id =>
    obtain ⟨hfits, hall⟩ := hmutation (.removeObject id) (by simp) (hnormal _ rfl) (hcommit _ rfl)
    exact ⟨hfits, fun _ => hall⟩
  | putRelation rel =>
    obtain ⟨hfits, hall⟩ := hmutation (.putRelation rel) (by simp) (hnormal _ rfl) (hcommit _ rfl)
    exact ⟨hfits, fun _ => hall⟩
  | removeRelation id =>
    obtain ⟨hfits, hall⟩ := hmutation (.removeRelation id) (by simp) (hnormal _ rfl) (hcommit _ rfl)
    exact ⟨hfits, fun _ => hall⟩
  | putPatch patch =>
    obtain ⟨hfits, hall⟩ := hmutation (.putPatch patch) (by simp) (hnormal _ rfl) (hcommit _ rfl)
    exact ⟨hfits, fun _ => hall⟩
  | removePatch id =>
    obtain ⟨hfits, hall⟩ := hmutation (.removePatch id) (by simp) (hnormal _ rfl) (hcommit _ rfl)
    exact ⟨hfits, fun _ => hall⟩
  | clear => exact absurd rfl hc
  | _ =>
    refine ⟨answers_of_mirrors (i := i) rfl hsingle ?_ rfl, fun hnone => absurd rfl hnone⟩
    exact mirrors_of_represents sdk i hsha ht h (hmaps g)

/-! ### Runs -/

section runs

variable {stores : Nat → GraphStore} {tr : List (GraphLabel F X)} {end_ : GraphConfig F X}

/-- The calls of the trace put normal data. -/
def NormalCalls (tr : List (GraphLabel F X)) : Prop := ∀ e ∈ tr, ∀ m ∈ e.op.1.mutation, m.Normal

lemma NormalCalls.front {front rest : List (GraphLabel F X)} (h : NormalCalls (front ++ rest)) :
    NormalCalls front := fun e he => h e (List.mem_append_left _ he)

/-- A call changes what the tables hold as it changes the maps. -/
lemma represents_step (hsha : CollisionFree env) (henc : EncodesJson env) {c : SingleCall F X}
    {rec : Rec} (ht : Sound env rec.before.tables)
    (hcall : GraphCalls env sdk lostCall lostAnswer i store c.1 rec)
    (hnormal : ∀ m ∈ c.1.mutation, m.Normal)
    (hmaps : ∀ g, Represents env g rec.before.tables (all g)) (g : String × String) :
    Represents env g rec.after.tables (all.step (.call i store c rec) g) := by
  have hclear : c.1 ≠ .clear := by
    intro hc
    have hsingle := c.2
    rw [hc] at hsingle
    exact hsingle
  unfold Projections.step
  rcases hcall.1 with ⟨htables, hlog⟩ | ⟨ws, hcommits, -, -, ⟨g', hreadable⟩, hplan⟩
  · simp only [hlog, if_true]
    rw [htables]
    exact hmaps g
  · have hgrows : rec.after.log ≠ rec.before.log := by
      rw [hcommits.2]
      simp
    simp only [hgrows, if_false]
    rw [hcommits.1]
    cases hm : c.1.mutation with
    | none =>
      unfold GraphCall.plan at hplan
      rw [hm] at hplan
      obtain rfl : [] = ws := Except.ok.inj hplan
      exact hmaps g
    | some m =>
      rw [hreadable.address]
      exact represents_commit hsha henc ht hreadable hclear hm (hnormal m hm) hmaps hplan g

/-- After every run the tables hold the maps that its commits make. -/
theorem represents_along (hsha : CollisionFree env) (henc : EncodesJson env)
    (h₀ : Gathered env s stores) (hmaps : ∀ g, Represents env g s.tables (all g))
    (hr : (graphSystem env sdk lostCall lostAnswer).Run ⟨s, fun i => .idle (stores i)⟩ tr end_)
    (hnormal : NormalCalls tr) (g : String × String) :
    Represents env g end_.shared.tables (all.along tr g) := by
  induction hr generalizing g with
  | nil => exact hmaps g
  | @snoc tr d e d' hr hs ih =>
    have hbefore : ∀ g, Represents env g d.shared.tables (all.along tr g) :=
      ih hnormal.front
    rw [along_snoc]
    cases hs with
    | start op hi => exact hbefore g
    | finish hi => exact hbefore g
    | @call _ _ i store c _ _ _ _ _ hi hserve =>
      have hlabels := ((graphContract sdk lostCall lostAnswer hsha).sound (gathered_ok hsha h₀)
        (hr.snoc (.call hi hserve))).2
      obtain ⟨hinv, -, hcall⟩ := hlabels _ (List.mem_append_right _ (List.mem_cons_self ..))
      exact represents_step hsha henc hinv.2 hcall
        (hnormal _ (List.mem_append_right _ (List.mem_cons_self ..))) hbefore g

/-- How a call has ended that belongs to a client of the run `front`. -/
inductive Linear (env : Env F X) (sdk : Sdk) (lostCall lostAnswer : Prop) (all : Projections F X)
    (front : List (GraphLabel F X)) (i : Nat) (store : GraphStore) (c : SingleCall F X)
    (h : Hist) (r : Except PyErr c.1.Value) : Prop
  /-- It answers from the maps at one of its calls, which leaves what it leaves alone. -/
  | acts {tr₁ rec tr₂ h₁ h₂} (hfront : front = tr₁ ++ .call i store c rec :: tr₂)
      (hh : h = h₁ ++ rec :: h₂) (hbefore : Quiet h₁) (hafter : Quiet h₂)
      (hanswer : c.1.Answers env sdk store.address (all.along tr₁ store.address) r)
      (hmaps : all.along (tr₁ ++ [.call i store c rec]) =
        (all.along tr₁).effect store.address c.1.mutation r)
  /-- It answers from the maps at its end, without a call. -/
  | rests (hh : h = [])
      (hanswer : c.1.Answers env sdk store.address (all.along front store.address) r)
      (hmaps : all.along front = (all.along front).effect store.address c.1.mutation r)
  /-- It fails with nothing changed. -/
  | fails {e} (hr : r = .error e) (hquiet : Quiet h) (hcause : ∃ rec ∈ h, Disturbed env sdk
      (graphClient env sdk lostCall lostAnswer i store c.1) rec)
  /-- It does at one of its calls what it does when it returns, and the answer to this call
  is lost. -/
  | unheard {e tr₁ rec tr₂ h₁ h₂} (hr : r = .error e) (hlost : lostAnswer)
      (hfront : front = tr₁ ++ .call i store c rec :: tr₂)
      (hh : h = h₁ ++ rec :: h₂) (hbefore : Quiet h₁) (hafter : Quiet h₂)
      (hmaps : all.along (tr₁ ++ [.call i store c rec]) =
        (all.along tr₁).effect store.address c.1.mutation (.ok () : Except PyErr Unit))

lemma effect_congr {α β : Type} {r : Except PyErr α} {r' : Except PyErr β} (m : Option (Mutation F X))
    (hr : r.isOk = r'.isOk) : all.effect g m r = all.effect g m r' := by
  cases m with
  | none => rfl
  | some m =>
    cases r <;> cases r' <;> first | rfl | cases hr

/-- At a call that leaves what the method leaves alone, the maps change as the method says. -/
lemma along_moment (hsha : CollisionFree env) (henc : EncodesJson env)
    (h₀ : Gathered env s stores) (hmaps : ∀ g, Represents env g s.tables (all g))
    (hr : (graphSystem env sdk lostCall lostAnswer).Run ⟨s, fun i => .idle (stores i)⟩ tr end_)
    (hnormal : NormalCalls tr) {c : SingleCall F X} {rec : Rec}
    {front rest : List (GraphLabel F X)} (htr : tr = front ++ .call i store c rec :: rest)
    (ht : rec.after.tables = (alone sdk i (c.1.code env) store rec.before).2.tables) :
    c.1.Answers env sdk store.address (all.along front store.address)
        (alone sdk i (c.1.code env) store rec.before).1.1 ∧
      all.along (front ++ [.call i store c rec]) = (all.along front).effect store.address
        c.1.mutation (alone sdk i (c.1.code env) store rec.before).1.1 := by
  subst htr
  have hlabels := ((graphContract sdk lostCall lostAnswer hsha).sound (gathered_ok hsha h₀) hr).2
  have hmem : .call i store c rec ∈ front ++ .call i store c rec :: rest :=
    List.mem_append_right _ (List.mem_cons_self ..)
  obtain ⟨hinv, -, -, g, hreadable⟩ := hlabels _ hmem
  obtain rfl := hreadable.address
  have hm : ∀ m ∈ c.1.mutation, m.Normal := hnormal _ hmem
  obtain ⟨d, d', hfront, hs, -⟩ := hr.around
  have hsnoc : NormalCalls ((front ++ [.call i store c rec]) ++ rest) := by
    rw [List.append_assoc]
    exact hnormal
  have hbefore := represents_along hsha henc h₀ hmaps hfront hnormal.front
  have hafter := represents_along hsha henc h₀ hmaps (hfront.snoc hs) hsnoc.front
  cases hs with
  | call hi hserve =>
    obtain ⟨hanswers, heffect⟩ := moment sdk i hsha henc hinv.2 hreadable c.2 hm hbefore
    refine ⟨hanswers, ?_⟩
    cases hmutation : c.1.mutation with
    | none =>
      rw [along_snoc]
      unfold Projections.step
      simp only [hmutation, ite_self]
      rfl
    | some m =>
      rw [← hmutation]
      funext g
      refine (hafter g).unique ?_
      have hgoal := heffect (by simp [hmutation]) g
      rw [← ht] at hgoal
      exact hgoal

/-- In every run of graph stores the tables hold the maps that its commits make, each the
mutation of its call. Each call ends as if it had been made at one moment on these maps. -/
theorem graph_calls_linear (hsha : CollisionFree env) (henc : EncodesJson env)
    (h₀ : Gathered env s stores) (hmaps : ∀ g, Represents env g s.tables (all g))
    (hr : (graphSystem env sdk lostCall lostAnswer).Run ⟨s, fun i => .idle (stores i)⟩ tr end_)
    (hnormal : NormalCalls tr) :
    (∀ g, Represents env g end_.shared.tables (all.along tr g)) ∧
    ∀ front i store c h a rest, tr = front ++ .finish i store c h a :: rest →
      ∃ r : Except PyErr c.1.Value, a = (r.map (.answer c.1), store) ∧
        Linear env sdk lostCall lostAnswer all front i store c h r := by
  refine ⟨represents_along hsha henc h₀ hmaps hr hnormal, ?_⟩
  rintro front i store c h a rest rfl
  obtain ⟨d, d', hfront, hs, -⟩ := hr.around
  have hnormal' : NormalCalls front := hnormal.front
  have hop : ∀ m ∈ c.1.mutation, m.Normal :=
    hnormal _ (List.mem_append_right _ (List.mem_cons_self ..))
  obtain ⟨⟨hinv, hclients⟩, -⟩ :=
    (graphContract sdk lostCall lostAnswer hsha).sound (gathered_ok hsha h₀) hfront
  cases hs with
  | @finish s' cl i store c h a hi =>
    have hbusy : GraphEnded env sdk lostCall lostAnswer i store c.1 h a s' := by
      have hclient := hclients i
      change (graphContract sdk lostCall lostAnswer hsha).ClientOk i s' (cl i) at hclient
      rw [hi] at hclient
      exact hclient
    obtain ⟨⟨g, hreadable⟩, r, ha, hsettled⟩ := hbusy
    obtain rfl := hreadable.address
    refine ⟨r, ha, ?_⟩
    -- a call of the history is a call of the run before
    have hcall : ∀ {h₁ rec h₂}, h = h₁ ++ rec :: h₂ →
        ∃ tr₁ tr₂, front = tr₁ ++ .call i store c rec :: tr₂ := by
      rintro h₁ rec h₂ rfl
      exact List.append_of_mem ((hfront.history_since rfl).1 _ _ _ _ hi rec (by simp))
    cases hsettled with
    | @acts h₁ rec h₂ hh hbefore hafter hr ht =>
      obtain ⟨tr₁, tr₂, hcut⟩ := hcall hh
      obtain ⟨hanswer, heffect⟩ := along_moment hsha henc h₀ hmaps hfront hnormal' hcut ht
      rw [← hr]
      exact .acts hcut hh hbefore hafter hanswer heffect
    | rests hh hr =>
      have hbefore := represents_along hsha henc h₀ hmaps hfront hnormal'
      have hrun : alone sdk i (c.1.code env) store s' = ((r, store), s') := hr s'
      obtain ⟨hanswer, heffect⟩ := moment sdk i hsha henc hinv.2 hreadable c.2 hop hbefore
      rw [hrun] at hanswer heffect
      refine .rests hh hanswer ?_
      cases hm : c.1.mutation with
      | none => rfl
      | some m =>
        rw [← hm]
        funext g
        exact (hbefore g).unique (heffect (by simp [hm]) g)
    | @fails e hr hquiet hcause => exact .fails hr hquiet hcause
    | @unheard e h₁ rec h₂ hr hh hbefore hafter hlost hok ht =>
      obtain ⟨tr₁, tr₂, hcut⟩ := hcall hh
      obtain ⟨-, heffect⟩ := along_moment hsha henc h₀ hmaps hfront hnormal' hcut ht
      obtain ⟨a, ha⟩ := hok
      refine .unheard hr hlost.1 hcut hh hbefore hafter (heffect.trans (effect_congr _ ?_))
      rw [ha]
      rfl

end runs

/-! ### The maps of a race -/

/-- The call puts empty data under the first version. -/
def putsNothing : GraphCall Unit Empty → Bool
  | .putObject ⟨_, _, .obj [], 1, .obj []⟩ | .putRelation ⟨_, _, _, _, .obj [], .obj []⟩ => true
  | _ => false

lemma normal_putsNothing {c : GraphCall Unit Empty} (h : putsNothing c = true) :
    ∀ m ∈ c.mutation, m.Normal := by
  have hempty : JsonNormal (F := Unit) (X := Empty) (.obj []) := ⟨.obj [], by decide, rfl, rfl⟩
  unfold putsNothing at h
  split at h
  · intro m hm
    obtain rfl := Option.some.inj hm
    exact ⟨hempty, hempty, (show fitsInt 1 = true by decide)⟩
  · intro m hm
    obtain rfl := Option.some.inj hm
    exact ⟨hempty, hempty⟩
  · cases h

lemma normal_raced : NormalCalls raced.1 := by
  have hall : raced.1.all (fun e => putsNothing e.op.1) = true := by decide +kernel
  intro e he
  exact normal_putsNothing (List.all_eq_true.mp hall e he)

theorem graph_calls_linear_raced :
    (∀ g, Represents (reference Unit) g raced.2.shared.tables
      (Projections.along (fun _ => Maps.empty) raced.1 g)) ∧
    ∃ front store c h a, (∃ exc, a.1 = .error exc) ∧
      (∃ rest, raced.1 = front ++ .finish 0 store c h a :: rest) ∧
      ∃ r : Except PyErr c.1.Value, a = (r.map (.answer c.1), store) ∧
        Linear (reference Unit) referenceSdk False False (fun _ => Maps.empty) front 0 store c h
          r := by
  obtain ⟨store, c, h, exc, store', hmem⟩ := raced_fails
  obtain ⟨front, rest, hcut⟩ := List.append_of_mem hmem
  obtain ⟨hmaps, hfinishes⟩ := graph_calls_linear reference_collisionFree reference_encodesJson
    gathered_ready (fun g => represents_empty rfl rfl rfl) run_raced normal_raced
  exact ⟨hmaps, front, store, c, h, _, ⟨exc, rfl⟩, ⟨rest, hcut⟩, hfinishes _ _ _ _ _ _ _ hcut⟩

end ActiveGraphSurreal
