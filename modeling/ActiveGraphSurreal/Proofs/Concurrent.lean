import ActiveGraphSurreal.Proofs.RelationMoment

/-!
# Graph stores at work together

Any number of graph stores work on one database, whatever their runs, and their database
calls interleave. While every projection keeps its status, each call of a store, except
`clear` and `neighborhood`, acts at one of its database calls as if it ran alone there. So
the projections go through the states of an atomic machine of maps.
-/

namespace ActiveGraphSurreal

open Library

set_option linter.unusedSectionVars false

variable {F X : Type} [Json.ScalarText F]

/-! ### The system -/

/-- A call that acts at one moment. -/
abbrev SingleCall (F X : Type) := { c : GraphCall F X // c.Single }

abbrev SingleResult (F X : Type) := Except PyErr (GraphValue F X) × GraphStore

/-- Each client has a graph store of its own, on a projection of its own or a common one. -/
def graphSystem (env : Env F X) (sdk : Sdk) (lostCall lostAnswer : Prop) :
    System Nat GraphStore (SingleCall F X) Call Answer (SingleResult F X) Database where
  serve i := (engine sdk).serve (faults lostCall lostAnswer) i
  code store c := (c.1.code env store).bind fun x => .done (x.1.map (.answer c.1), x.2)
  finish _ _ _ a := a.2

abbrev GraphConfig (F X : Type) :=
  Config Nat GraphStore (SingleCall F X) Call Answer (SingleResult F X) Database

abbrev GraphLabel (F X : Type) :=
  Label Nat GraphStore (SingleCall F X) Call Answer (SingleResult F X) Database

/-- The stores of the clients are ready, and nobody is at work. -/
structure Gathered (env : Env F X) (db : Database) (stores : Nat → GraphStore) : Prop where
  consistent : Consistent env db
  sound : Sound env db.tables
  readable : ∀ i, ∃ g, (stores i).Readable env g db.tables

variable {env : Env F X} {sdk : Sdk} {lostCall lostAnswer : Prop} {i : Nat} {store : GraphStore}
  {c : GraphCall F X} {h : Hist} {s s₀ : Database}

/-! ### The contract -/

lemma stands_of_guar {rec : Rec}
    (hg : (graphClient env sdk lostCall lostAnswer i store c).guar sdk rec) :
    Stands env rec.before rec.after := by
  rcases hg with hsame | ⟨ws, hcommits, -, hlawful, -⟩
  · exact .of_same sdk ⟨hsame.1, hsame.2⟩
  · have hlawfully : (standing env).Lawfully (engine sdk) rec.before rec.after fun _ _ => True :=
      .inr ⟨ws, hcommits, hlawful, trivial⟩
    exact .of_lawfully hlawfully

/-- How a call ends: its answer is settled and its store is still ready. -/
def GraphEnded (env : Env F X) (sdk : Sdk) (lostCall lostAnswer : Prop) (i : Nat)
    (store : GraphStore) (c : GraphCall F X) (h : Hist) (a : SingleResult F X) (db : Database) :
    Prop :=
  (∃ g, store.Readable env g db.tables) ∧ ∃ r : Except PyErr c.Value,
    a = (r.map (.answer c), store) ∧
      Settled (graphClient env sdk lostCall lostAnswer i store c) sdk (c.code env) store h r

variable (env sdk lostCall lostAnswer i store c) in
/-- The store is ready at each of its calls, and the call changes nothing or commits the plan. -/
def GraphCalls (rec : Rec) : Prop :=
  (graphClient env sdk lostCall lostAnswer i store c).guar sdk rec ∧
    ∃ g, store.Readable env g rec.before.tables

variable (sdk lostCall lostAnswer i) in
lemma safe_single (hsha : CollisionFree env) (c : SingleCall F X) {g : String × String}
    (hready : Ready env g store s) :
    Prog.Safe ((engine sdk).serve (faults lostCall lostAnswer) i)
      (graphClient env sdk lostCall lostAnswer i store c.1).rely
      (fun rec => (engine sdk).serve (faults lostCall lostAnswer) i rec.call rec.before rec.answer
        rec.after ∧ GraphCalls env sdk lostCall lostAnswer i store c.1 rec)
      (GraphEnded env sdk lostCall lostAnswer i store c.1) []
      ((graphSystem env sdk lostCall lostAnswer).code store c) s := by
  let Reads : Database → Prop := fun s => ∃ g, store.Readable env g s.tables
  have hstays : ∀ a b, Reads a → Stands env a b → Reads b :=
    fun a b ha hab => ha.imp fun g hg => readable_stands hg hab
  have hsettles : (graphClient env sdk lostCall lostAnswer i store c.1).Wp sdk
      (fun h a _ => ∃ r : Except PyErr c.1.Value, a = (r.map (.answer c.1), store) ∧
        Settled (graphClient env sdk lostCall lostAnswer i store c.1) sdk (c.1.code env) store h r)
      [] ((graphSystem env sdk lostCall lostAnswer).code store c) s := by
    refine Prog.safe_bind_iff.mpr (Setting.wp_mono (point_code hsha c.2 s hready) ?_)
    rintro h ⟨r, store'⟩ s' ⟨hstore, hsettled⟩
    obtain rfl : store' = store := hstore
    exact ⟨r, rfl, hsettled⟩
  have hkept := Prog.Safe.keeping (fun a b ha hab => hstays a b ha hab.2)
    (fun rec hguar hbefore => hstays _ _ hbefore (stands_of_guar hguar)) ⟨g, hready.readable⟩
    hsettles
  exact (hkept.mono fun h a s' hended => ⟨hended.2, hended.1⟩).served

variable (sdk lostCall lostAnswer) in
def graphContract (hsha : CollisionFree env) :
    Contract (graphSystem env sdk lostCall lostAnswer) where
  inv s := Consistent env s ∧ Sound env s.tables
  idle _ store s := ∃ g, store.Readable env g s.tables
  rely i a b := (guarded env).Rely i a b ∧ Stands env a b
  guar i store c rec :=
    (engine sdk).serve (faults lostCall lostAnswer) i rec.call rec.before rec.answer rec.after ∧
      GraphCalls env sdk lostCall lostAnswer i store c.1 rec
  post i store c h a s := GraphEnded env sdk lostCall lostAnswer i store c.1 h a s
  rely_refl i s _ := ⟨(guarded env).rely_refl i s, .of_same sdk (same_refl s)⟩
  rely_trans i a b c h h' := ⟨(guarded env).rely_trans i a b c h.1 h'.1, h.2.trans h'.2⟩
  idle_rely _ _ _ _ h hR := h.imp fun _ hg => readable_stands hg hR.2
  post_rely _ _ _ _ _ _ _ h hR := ⟨h.1.imp fun _ hg => readable_stands hg hR.2, h.2⟩
  guar_inv _ _ _ _ hg hinv :=
    ⟨((guarded env).served (engine sdk) hg.1 hg.2.1 hinv.1).1,
      (stands_of_guar hg.2.1).sound hinv.2⟩
  guar_rely _ j _ _ _ hij hg hinv :=
    ⟨((guarded env).served (engine sdk) hg.1 hg.2.1 hinv.1).2 j (Ne.symm hij),
      stands_of_guar hg.2.1⟩
  safe i store c _ hidle hinv := by
    obtain ⟨g, hreadable⟩ := hidle
    exact safe_single sdk lostCall lostAnswer i hsha c ⟨hinv.1, hinv.2, hreadable⟩
  next i store c h a s hended := by
    obtain ⟨hreadable, r, rfl, -⟩ := hended
    exact hreadable

/-! ### The calls of a run -/

variable (sdk i) in
/-- A mutation that is carried out leaves what it leaves alone. -/
lemma alone_plan (hsha : CollisionFree env) (ht : Sound env s.tables) {g : String × String}
    (hreadable : store.Readable env g s.tables) (hc : c.Single) {ws : List Write}
    (hplan : c.plan env sdk store s.tables = .ok ws) :
    (engine sdk).applyAll ws s.tables = s.tables ∨
      (engine sdk).applyAll ws s.tables = (alone sdk i (c.code env) store s).2.tables := by
  have hmutation : ∀ m : Mutation F X, m ≠ .clear → m.plan env sdk store s.tables = .ok ws →
      (engine sdk).applyAll ws s.tables = (alone sdk i (m.code env) store s).2.tables := by
    intro m hclear hm
    rw [(does_mutation sdk i hsha ht.toPlaced hreadable hclear).tables, hm]
    rfl
  have hnone : (.ok [] : Except PyErr (List Write)) = .ok ws →
      (engine sdk).applyAll ws s.tables = s.tables := by
    intro hws
    rw [← Except.ok.inj hws]
    rfl
  cases c with
  | putObject obj => exact .inr (hmutation (.putObject obj) (by simp) hplan)
  | removeObject id => exact .inr (hmutation (.removeObject id) (by simp) hplan)
  | putRelation rel => exact .inr (hmutation (.putRelation rel) (by simp) hplan)
  | removeRelation id => exact .inr (hmutation (.removeRelation id) (by simp) hplan)
  | putPatch patch => exact .inr (hmutation (.putPatch patch) (by simp) hplan)
  | removePatch id => exact .inr (hmutation (.removePatch id) (by simp) hplan)
  | clear => exact hc.elim
  | _ => exact .inl (hnone hplan)

lemma gathered_ok (hsha : CollisionFree env) {stores : Nat → GraphStore}
    (h₀ : Gathered env s stores) : (graphContract sdk lostCall lostAnswer hsha).Ok
      ⟨s, fun i => .idle (stores i)⟩ :=
  ⟨⟨h₀.consistent, h₀.sound⟩, h₀.readable⟩

/-- Every database call of a graph store's call changes nothing or does all that the graph
store's call does alone. Every call that ends has settled. -/
theorem graph_calls_act_at_once (hsha : CollisionFree env) {stores : Nat → GraphStore}
    (h₀ : Gathered env s stores) {tr : List (GraphLabel F X)} {end_ : GraphConfig F X}
    (hr : (graphSystem env sdk lostCall lostAnswer).Run ⟨s, fun i => .idle (stores i)⟩ tr end_) :
    (∀ i store c rec, .call i store c rec ∈ tr → rec.after.tables = rec.before.tables ∨
      rec.after.tables = (alone sdk i (c.1.code env) store rec.before).2.tables) ∧
    ∀ i store c h a, .finish i store c h a ∈ tr → ∃ r : Except PyErr c.1.Value,
      a = (r.map (.answer c.1), store) ∧
        Settled (graphClient env sdk lostCall lostAnswer i store c.1) sdk (c.1.code env) store h
          r := by
  obtain ⟨-, hlabels⟩ := (graphContract sdk lostCall lostAnswer hsha).sound
    (gathered_ok hsha h₀) hr
  constructor
  · intro i store c rec hmem
    obtain ⟨hinv, -, hguar, -⟩ := hlabels _ hmem
    rcases hguar with hsame | ⟨ws, hcommits, -, -, ⟨g, hreadable⟩, hplan⟩
    · exact .inl hsame.1
    · rw [hcommits.1]
      exact alone_plan sdk i hsha hinv.2 hreadable c.2 hplan
  · intro i store c h a hmem
    obtain ⟨s', -, -, hended⟩ := hlabels _ hmem
    exact hended

/-! ### A race -/

lemma gathered_ready : Gathered (reference Unit) readyDatabase
    fun _ => referenceGraph ("s", "r") := by
  have hlawful : (guarded (reference Unit)).Lawful (engine referenceSdk) readyWrites
      Tables.empty := by
    refine lawful_onProjection (fun w hw => ?_) good_empty
    obtain rfl := List.mem_singleton.mp hw
    trivial
  refine ⟨⟨hlawful.1, fun i tx h => ?_⟩, sound_ready, fun _ => ⟨_, readable_ready⟩⟩
  cases h

def racingRelation : Relation Unit Empty :=
  ⟨"next#1", "task#1", "task#2", "next", .obj [], .obj []⟩

/-- One client relates two objects that are not there, and another one puts the first of them
before the relation is committed. -/
def racingOrders : List (System.Order Nat (SingleCall Unit Empty)) :=
  [.start 0 ⟨.putRelation racingRelation, trivial⟩, .step 0, .step 0, .step 0, .step 0,
    .start 1 ⟨.putObject (numberedObject "task#1"), trivial⟩, .finish 1, .finish 0]

def raced : List (GraphLabel Unit Empty) × GraphConfig Unit Empty :=
  (graphSystem (reference Unit) referenceSdk False False).schedule
    (fun i => (engine referenceSdk).perform i)
    ⟨readyDatabase, fun _ => .idle (referenceGraph ("s", "r"))⟩ racingOrders

lemma run_raced : (graphSystem (reference Unit) referenceSdk False False).Run
    ⟨readyDatabase, fun _ => .idle (referenceGraph ("s", "r"))⟩ raced.1 raced.2 :=
  System.Run.schedule (fun _ _ _ => Or.inl rfl) .nil racingOrders

def failsFirst : GraphLabel Unit Empty → Bool
  | .finish 0 _ _ _ (.error _, _) => true
  | _ => false

lemma failsFirst_iff {e : GraphLabel Unit Empty} (h : failsFirst e = true) :
    ∃ store c h exc store', e = .finish 0 store c h (.error exc, store') := by
  unfold failsFirst at h
  split at h
  · exact ⟨_, _, _, _, _, rfl⟩
  · cases h

/-- The relation meets a conflict with the object. -/
lemma raced_fails : ∃ store c h exc store',
    .finish 0 store c h (.error exc, store') ∈ raced.1 := by
  have hany : raced.1.any failsFirst = true := by decide +kernel
  obtain ⟨e, hmem, he⟩ := List.any_eq_true.mp hany
  obtain ⟨store, c, h, exc, store', rfl⟩ := failsFirst_iff he
  exact ⟨store, c, h, exc, store', hmem⟩

theorem graph_calls_act_at_once_raced :
    (∀ i store c rec, .call i store c rec ∈ raced.1 → rec.after.tables = rec.before.tables ∨
      rec.after.tables =
        (alone referenceSdk i (c.1.code (reference Unit)) store rec.before).2.tables) ∧
    ∃ store c h a, .finish 0 store c h a ∈ raced.1 ∧ (∃ exc, a.1 = .error exc) ∧
      ∃ r : Except PyErr c.1.Value, a = (r.map (.answer c.1), store) ∧
        Settled (graphClient (reference Unit) referenceSdk False False 0 store c.1) referenceSdk
          (c.1.code (reference Unit)) store h r := by
  obtain ⟨store, c, h, exc, store', hmem⟩ := raced_fails
  obtain ⟨hcalls, hfinishes⟩ :=
    graph_calls_act_at_once reference_collisionFree gathered_ready run_raced
  exact ⟨hcalls, store, c, h, _, hmem, ⟨exc, rfl⟩, hfinishes _ _ _ _ _ hmem⟩

end ActiveGraphSurreal
