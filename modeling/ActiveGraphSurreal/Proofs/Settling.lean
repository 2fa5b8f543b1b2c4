import ActiveGraphSurreal.Proofs.Logs
import ActiveGraphSurreal.Proofs.MapModel

/-!
# Graph stores among others

While others work on the same database and every projection keeps its status, a method of a
graph store settles: one of its calls does all that the method does alone on the state it
finds, and its other calls change nothing. The rules follow a method from its gate to its
last statement.
-/

namespace ActiveGraphSurreal

open Library

set_option linter.unusedSectionVars false

variable {F X : Type} [Json.ScalarText F]

/-! ### Calls that act at one moment -/

def GraphCall.Single : GraphCall F X → Prop
  | neighborhood .. | clear => False
  | _ => True

/-- The mutation that a call makes. -/
def GraphCall.mutation : GraphCall F X → Option (Mutation F X)
  | putObject obj => some (.putObject obj)
  | removeObject objectId => some (.removeObject objectId)
  | putRelation rel => some (.putRelation rel)
  | removeRelation relationId => some (.removeRelation relationId)
  | putPatch patch => some (.putPatch patch)
  | removePatch patchId => some (.removePatch patchId)
  | clear => some .clear
  | _ => none

/-- What a call writes to the tables that it finds. -/
def GraphCall.plan (env : Env F X) (sdk : Sdk) (store : GraphStore) (t : Tables)
    (c : GraphCall F X) : Except PyErr (List Write) :=
  match c.mutation with
  | some m => m.plan env sdk store t
  | none => .ok []

/-! ### Vertices stay -/

/-- The writes of the calls: they touch entities and delete no vertex. -/
def Write.Keeping : Write → Prop
  | .vertex _ (some _) | .relation _ _ | .patch _ _ => True
  | _ => False

lemma Write.Keeping.onEntities {w : Write} (hw : w.Keeping) : w.OnEntities := by
  cases w with
  | vertex key row => trivial
  | relation key row => trivial
  | patch key row => trivial
  | _ => exact hw.elim

variable {env : Env F X} {sdk : Sdk} {t : Tables} {ws : List Write} {store : GraphStore}

lemma keeping_apply {w : Write} (hw : w.Keeping) {key : String}
    (hkey : t.vertex.lookup key ≠ none) : (w.apply t).vertex.lookup key ≠ none := by
  cases w with
  | vertex key' row =>
    cases row with
    | none => exact hw.elim
    | some row =>
      have hthere := Option.ne_none_iff_exists'.mp hkey
      exact Option.ne_none_iff_exists'.mpr (vertex_kept hthere)
  | relation key' row => exact hkey
  | patch key' row => exact hkey
  | _ => exact hw.elim

lemma keeping_applyAll (hws : ∀ w ∈ ws, w.Keeping) {key : String}
    (hkey : t.vertex.lookup key ≠ none) :
    ((engine sdk).applyAll ws t).vertex.lookup key ≠ none := by
  induction ws generalizing t with
  | nil => exact hkey
  | cons w ws ih =>
    have hfirst := keeping_apply (hws w (List.mem_cons_self ..)) hkey
    exact ih (fun w' hw' => hws w' (List.mem_cons_of_mem _ hw')) hfirst

/-- A vertex whose record is not written stays as it is. -/
lemma vertex_unwritten {key : String} (hkey : Target.record .agVertex key ∉ ws.map Write.target) :
    ((engine sdk).applyAll ws t).vertex.lookup key = t.vertex.lookup key := by
  induction ws generalizing t with
  | nil => rfl
  | cons w ws ih =>
    rw [List.map_cons, List.mem_cons, not_or] at hkey
    have hfirst : (w.apply t).vertex.lookup key = t.vertex.lookup key := by
      cases w with
      | vertex key' row =>
        have hne : key ≠ key' := by
          rintro rfl
          exact hkey.1 rfl
        change (t.vertex.write key' row).lookup key = _
        rw [Records.lookup_write, if_neg hne]
      | _ => rfl
    exact (ih (t := w.apply t) hkey.2).trans hfirst

namespace GraphStore

lemma keeping_stub {vertex : RecordId .agVertex} {id : String}
    (hplan : store.stub sdk vertex id = .ok ws) : ∀ w ∈ ws, w.Keeping := by
  obtain ⟨n, seq, -, -, rfl⟩ := stub_iff.mp hplan
  intro w hw
  rw [List.mem_singleton.mp hw]
  trivial

lemma keeping_endpoint {vertex : RecordId .agVertex} {id : String}
    (hplan : store.endpointPlan sdk t vertex id = .ok ws) : ∀ w ∈ ws, w.Keeping := by
  rcases endpointPlan_iff.mp hplan with ⟨-, rfl⟩ | ⟨-, hstub⟩
  · exact fun w hw => absurd hw List.not_mem_nil
  · exact keeping_stub hstub

end GraphStore

theorem keeping_plan {c : GraphCall F X} (hc : c ≠ .clear) (hplan : c.plan env sdk store t = .ok ws) :
    ∀ w ∈ ws, w.Keeping := by
  have hone : ∀ {w : Write}, w.Keeping → ∀ w' ∈ [w], w'.Keeping := by
    intro w hw w' hw'
    rw [List.mem_singleton.mp hw']
    exact hw
  have hnone : (.ok [] : Except PyErr (List Write)) = .ok ws → ∀ w ∈ ws, w.Keeping := by
    intro hws w hw
    rw [← Except.ok.inj hws] at hw
    cases hw
  cases c with
  | putObject obj =>
    obtain ⟨n, seq, version, record, vertex, -, -, -, -, -, rfl⟩ :=
      GraphStore.putObjectPlan_iff.mp hplan
    exact hone trivial
  | removeObject id =>
    obtain ⟨vertex, -, ⟨-, rfl⟩ | ⟨-, hstub⟩⟩ := GraphStore.removeObjectPlan_iff.mp hplan
    · exact fun w hw => absurd hw List.not_mem_nil
    · exact GraphStore.keeping_stub hstub
  | putRelation rel =>
    obtain ⟨source, target, relation, -, -, -, hplan⟩ := GraphStore.putRelationPlan_iff.mp hplan
    obtain ⟨first, second, record, hfirst, hsecond, -, rfl⟩ :=
      GraphStore.transactionPlan_iff.mp hplan
    intro w hw
    simp only [List.mem_append, GraphStore.relationWrites, List.mem_cons, List.not_mem_nil,
      or_false] at hw
    rcases hw with (hw | hw) | rfl | rfl
    · exact GraphStore.keeping_endpoint hfirst w hw
    · exact GraphStore.keeping_endpoint hsecond w hw
    · trivial
    · trivial
  | removeRelation id =>
    obtain ⟨relation, -, hplan⟩ := bind_eq_ok.mp hplan
    rw [← pure_eq_ok.mp hplan]
    exact hone trivial
  | putPatch patch =>
    obtain ⟨expectedVersion, record, content, -, -, -, rfl⟩ := GraphStore.putPatchPlan_iff.mp hplan
    exact hone trivial
  | removePatch id =>
    obtain ⟨record, -, hplan⟩ := bind_eq_ok.mp hplan
    rw [← pure_eq_ok.mp hplan]
    exact hone trivial
  | clear => exact absurd rfl hc
  | _ => exact hnone hplan

/-! ### What the clients rely on -/

/-- The vertices, each guarded by its record. No vertex goes, and no projection record changes. -/
def standing (env : Env F X) : Guarded Tables Target String (Option VertexRow) where
  part key t := t.vertex.lookup key
  guard key := .record .agVertex key
  Good := Sound env
  Past t t' := t'.projection = t.projection ∧
    ∀ key, t.vertex.lookup key ≠ none → t'.vertex.lookup key ≠ none
  past_refl _ := ⟨rfl, fun _ hkey => hkey⟩
  past_trans _ _ _ h h' := ⟨h'.1.trans h.1, fun key hkey => h'.2 key (h.2 key hkey)⟩

/-- What a client knows of the way from one state to a later one. -/
structure Stands (env : Env F X) (a b : Database) : Prop where
  past : (standing env).Past a.tables b.tables
  sound : Sound env a.tables → Sound env b.tables
  tx : ∀ tx, (standing env).TxOk a tx → (standing env).TxOk b tx

lemma Stands.of_lawfully {a b : Database} {allowed : List Write → Tables → Prop}
    (h : (standing env).Lawfully (engine sdk) a b allowed) : Stands env a b := by
  obtain ⟨hpast, hgood, htx⟩ := h.keeps
  exact ⟨hpast, hgood, htx⟩

lemma Stands.of_same (sdk : Sdk) {a b : Database} (h : Same a b) : Stands env a b := by
  have hlawfully : (standing env).Lawfully (engine sdk) a b fun _ _ => True :=
    .inl ⟨h.tables, h.log⟩
  exact .of_lawfully hlawfully

lemma Stands.trans {a b c : Database} (h : Stands env a b) (h' : Stands env b c) :
    Stands env a c :=
  ⟨(standing env).past_trans _ _ _ h.past h'.past, fun hs => h'.sound (h.sound hs),
    fun tx htx => h'.tx tx (h.tx tx htx)⟩

/-- A plan that is carried out is lawful. -/
theorem lawful_plan (hsha : CollisionFree env) {g : String × String} (ht : Sound env t)
    (h : store.Readable env g t) {c : GraphCall F X} (hc : c ≠ .clear)
    (hplan : c.plan env sdk store t = .ok ws) : (standing env).Lawful (engine sdk) ws t := by
  have hkeeping := keeping_plan hc hplan
  have hprojection : ((engine sdk).applyAll ws t).projection = t.projection :=
    projection_applyAll fun w hw => (hkeeping w hw).onEntities
  have hsound : Sound env ((engine sdk).applyAll ws t) := by
    unfold GraphCall.plan at hplan
    cases hm : c.mutation with
    | none =>
      rw [hm] at hplan
      rw [← Except.ok.inj hplan]
      exact ht
    | some m =>
      rw [hm] at hplan
      have hclear : m ≠ .clear := by
        rintro rfl
        cases c <;> first | exact hc rfl | cases hm
      -- a database with these tables
      let db : Database := ⟨t, [], fun _ => none⟩
      have ht' : Sound env db.tables := ht
      obtain ⟨db', -, hsound, -, htables⟩ := alone_mutation sdk 0 hsha ht' h hclear
      have hplan' : m.plan env sdk store t = .ok ws := hplan
      have hafter : db'.tables = (engine sdk).applyAll ws t := by
        rw [htables, hplan']
        rfl
      rw [← hafter]
      exact hsound
  exact ⟨hsound, ⟨hprojection, fun key hkey => keeping_applyAll hkeeping hkey⟩,
    fun key hkey => vertex_unwritten hkey⟩

/-- A graph store at work among others. It commits the plan of its call. -/
abbrev graphClient (env : Env F X) (sdk : Sdk) (lostCall lostAnswer : Prop) (i : Nat)
    (store : GraphStore) (c : GraphCall F X) : Setting env where
  lostCall := lostCall
  lostAnswer := lostAnswer
  alone := False
  client := i
  rely a b := (guarded env).Rely i a b ∧ Stands env a b
  drift a b := Past a.tables b.tables ∧ Stands env a b
  allowed _ ws t := (standing env).Lawful (engine sdk) ws t ∧
    (∃ g, store.Readable env g t) ∧ c.plan env sdk store t = .ok ws
  rely_sound _ _ h := h.1
  drift_rely _ _ h := ⟨h.1.1, h.2⟩
  drift_quiet _ _ h := ⟨h.past, .of_same sdk h⟩
  drift_trans _ _ _ h h' := ⟨past_trans _ _ _ h.1 h'.1, h.2.trans h'.2⟩
  drift_past _ _ h := h.1
  drift_alone h := h.elim

/-! ### One moment -/

/-- The call was lost, or is a commit that met a conflict. -/
def Disturbed (env : Env F X) (sdk : Sdk) (S : Setting env) (rec : Rec) : Prop :=
  S.Lost sdk rec ∨ rec.call = .commit ∧ ∃ tx, rec.before.tx S.client = some tx ∧
    (engine sdk).conflicts rec.before tx = true

/-- How a method on a graph store can end among others. -/
inductive Settled {α : Type} (S : Setting env) (sdk : Sdk) (m : Py GraphStore α)
    (store : GraphStore) (h : Hist) (r : Except PyErr α) : Prop
  /-- One of its calls does all that it does alone, and the others change nothing. -/
  | acts {h₁ rec h₂} (hh : h = h₁ ++ rec :: h₂) (hbefore : Quiet h₁) (hafter : Quiet h₂)
      (hr : (alone sdk S.client m store rec.before).1.1 = r)
      (ht : rec.after.tables = (alone sdk S.client m store rec.before).2.tables)
  /-- It needs no call. -/
  | rests (hh : h = []) (hr : ∀ db, alone sdk S.client m store db = ((r, store), db))
  /-- It fails with nothing changed. -/
  | fails {e} (hr : r = .error e) (hquiet : Quiet h) (hcause : ∃ rec ∈ h, Disturbed env sdk S rec)
  /-- It has acted at one of its calls, and the answer to this call was lost. -/
  | unheard {e h₁ rec h₂} (hr : r = .error e) (hh : h = h₁ ++ rec :: h₂) (hbefore : Quiet h₁)
      (hafter : Quiet h₂) (hlost : S.lostAnswer ∧ S.Lost sdk rec)
      (hok : ∃ a, (alone sdk S.client m store rec.before).1.1 = .ok a)
      (ht : rec.after.tables = (alone sdk S.client m store rec.before).2.tables)

/-- A call that changes nothing may follow. -/
lemma Settled.snoc {α : Type} {S : Setting env} {m : Py GraphStore α} {h : Hist}
    {r : Except PyErr α} (hs : Settled S sdk m store h r) (hne : h ≠ []) {rec : Rec}
    (hrec : Same rec.before rec.after) : Settled S sdk m store (h ++ [rec]) r := by
  have hcut : ∀ {h₁ : Hist} {rec' : Rec} {h₂ : Hist}, h = h₁ ++ rec' :: h₂ →
      h ++ [rec] = h₁ ++ rec' :: (h₂ ++ [rec]) := by
    rintro h₁ rec' h₂ rfl
    simp
  cases hs with
  | acts hh hbefore hafter hr ht => exact .acts (hcut hh) hbefore (hafter.concat hrec) hr ht
  | rests hh hr => exact absurd hh hne
  | fails hr hquiet hcause =>
    obtain ⟨rec', hmem, hdisturbed⟩ := hcause
    exact .fails hr (hquiet.concat hrec) ⟨rec', List.mem_append_left _ hmem, hdisturbed⟩
  | unheard hr hh hbefore hafter hlost hok ht =>
    exact .unheard hr (hcut hh) hbefore (hafter.concat hrec) hlost hok ht

section rules

variable {α β : Type} {S : Setting env} {m₀ m : Py GraphStore α} {h : Hist} {s : Database}

/-- From here on the method `m₀` ends as `Settled` says, and commits what it may. -/
def Settles (S : Setting env) (sdk : Sdk) (m₀ : Py GraphStore α) (store : GraphStore) (h : Hist)
    (p : Prog Call Answer (Except PyErr α × GraphStore)) (s : Database) : Prop :=
  S.Wp sdk (fun h x _ => x.2 = store ∧ Settled S sdk m₀ store h x.1) h p s

/-- The method `m₀` has come to its part `m` with nothing written. Alone from any later state,
the whole would do what the part does. -/
structure OnWay (S : Setting env) (sdk : Sdk) (m₀ : Py GraphStore α) (store : GraphStore)
    (m : Py GraphStore α) (h : Hist) (s : Database) : Prop where
  quiet : Quiet h
  same : ∀ s', S.rely s s' →
    alone sdk S.client m₀ store s' = alone sdk S.client m store s'
  point : (h = [] ∧ ∀ db, alone sdk S.client m₀ store db = alone sdk S.client m store db) ∨
    ∃ h₁ rec, h = h₁ ++ [rec] ∧ rec.before = s ∧ rec.after = s

lemma onWay_start : OnWay S sdk m₀ store m₀ [] s :=
  ⟨quiet_nil, fun _ _ => rfl, .inl ⟨rfl, fun _ => rfl⟩⟩

/-- A part that runs as another one. -/
lemma OnWay.congr {m' : Py GraphStore α} (hway : OnWay S sdk m₀ store m h s)
    (hm : m store = m' store) : OnWay S sdk m₀ store m' h s := by
  have halone : ∀ db, alone sdk S.client m store db = alone sdk S.client m' store db := by
    intro db
    unfold alone
    rw [hm]
  refine ⟨hway.quiet, fun s' hs' => (hway.same s' hs').trans (halone s'), ?_⟩
  rcases hway.point with ⟨hh, hall⟩ | hlast
  · exact .inl ⟨hh, fun db => (hall db).trans (halone db)⟩
  · exact .inr hlast

/-- A method that has come to its result after a call that changes nothing. -/
lemma settled_here {r : Except PyErr α} {rec : Rec} (hquiet : Quiet h) (hrec : rec.after = rec.before)
    (hrun : alone sdk S.client m₀ store rec.before = ((r, store), rec.before)) :
    Settled S sdk m₀ store (h ++ [rec]) r := by
  refine .acts rfl hquiet quiet_nil ?_ ?_
  · rw [hrun]
  · rw [hrun, hrec]

/-- A method that needs nothing more. -/
lemma settles_done (hrefl : ∀ s, S.rely s s) {r : Except PyErr α} (hm : m store = .done (r, store))
    (hway : OnWay S sdk m₀ store m h s) : Settles S sdk m₀ store h (m store) s := by
  have halone : ∀ db, alone sdk S.client m store db = ((r, store), db) := by
    intro db
    unfold alone
    rw [hm]
    rfl
  rw [hm]
  refine ⟨rfl, ?_⟩
  rcases hway.point with ⟨hh, hall⟩ | ⟨h₁, rec, rfl, hbefore, hafter⟩
  · exact .rests hh fun db => (hall db).trans (halone db)
  · have hrun : alone sdk S.client m₀ store rec.before = ((r, store), rec.before) := by
      rw [hbefore, hway.same s (hrefl s)]
      exact halone s
    have hquiet : Quiet h₁ := fun rec' hrec' => hway.quiet rec' (List.mem_append_left _ hrec')
    exact settled_here hquiet (hafter.trans hbefore.symm) hrun

/-- A first part without calls. -/
lemma settles_known (hrefl : ∀ s, S.rely s s) {m : Py GraphStore β} {x : Except PyErr β}
    {f : β → Py GraphStore α} (hm : m store = .done (x, store))
    (hway : OnWay S sdk m₀ store (m >>= f) h s)
    (hf : ∀ a, x = .ok a → OnWay S sdk m₀ store (f a) h s →
      Settles S sdk m₀ store h (f a store) s) :
    Settles S sdk m₀ store h ((m >>= f) store) s := by
  have hrun : (m >>= f) store = Method.andThen f (x, store) := by
    change (m store).bind _ = _
    rw [hm]
    rfl
  cases x with
  | error e => exact settles_done hrefl hrun hway
  | ok a =>
    rw [hrun]
    exact hf a rfl (hway.congr hrun)

/-- The call that was lost has changed nothing. -/
lemma settled_lost {e : PyErr} (hquiet : Quiet h) {rec : Rec} (hsame : Same rec.before rec.after)
    (hlost : S.Lost sdk rec) : Settled S sdk m₀ store (h ++ [rec]) (.error e) :=
  .fails rfl (hquiet.concat hsame)
    ⟨rec, List.mem_append_right _ (List.mem_cons_self ..), .inl hlost⟩

/-- The last statement of a method, outside a transaction. -/
theorem settles_last {st : Stmt}
    {k : Answer (.query st) → Prog Call Answer (Except PyErr α × GraphStore)}
    (hm : m store = .call (.query st) k) (herror : ∀ e, k (.error e) = .done (.error e, store))
    (hdone : ∀ r, ∃ x, k (.ok r) = .done (x, store)) (hc : Consistent env s)
    (hway : OnWay S sdk m₀ store m h s)
    (hws : ∀ s₁ r ws, S.rely s s₁ → st.exec sdk s₁.tables = .ok (r, ws) → ws ≠ [] →
      (∀ w ∈ ws, w.Keeping) ∧ S.allowed (.query st) ws s₁.tables ∧
        ∃ a, k (.ok r) = .done (.ok a, store)) :
    Settles S sdk m₀ store h (m store) s := by
  have hrun : ∀ s₁, S.rely s s₁ → alone sdk S.client m₀ store s₁ =
      (k ((engine sdk).perform S.client (.query st) s₁).1).run ((engine sdk).perform S.client)
        ((engine sdk).perform S.client (.query st) s₁).2 := by
    intro s₁ hrely
    rw [hway.same s₁ hrely]
    unfold alone
    rw [hm]
    rfl
  rw [hm]
  refine Setting.wp_call hc ?_ ?_
  · rintro s₁ hrely hc₁ ws hne (⟨st', r, hst, hexec⟩ | ⟨tx, hcommit, -⟩)
    · obtain rfl : st = st' := DbCall.query.inj hst
      obtain ⟨hkeeping, hallowed, -⟩ := hws s₁ r ws hrely hexec hne
      have hprojection : ∀ w ∈ ws, w.OnProjection := fun w hw =>
        (hkeeping w hw).onEntities.onProjection
      exact ⟨lawful_onProjection hprojection hc₁.1, hallowed⟩
    · cases hcommit
  · intro s₁ r s₂ hrely hc₁ hserve hc₂
    have hacts : ∀ {x : Except PyErr α}, k r = .done (x, store) →
        (r, s₂) = (engine sdk).perform S.client (.query st) s₁ →
        Settles S sdk m₀ store (h ++ [⟨.query st, s₁, r, s₂⟩]) (k r) s₂ := by
      intro x hx hperform
      have hwhole := hrun s₁ hrely
      rw [← hperform, hx] at hwhole
      rw [hx]
      refine ⟨rfl, .acts rfl hway.quiet quiet_nil ?_ ?_⟩
      · rw [hwhole]
        rfl
      · rw [hwhole]
        rfl
    rcases Setting.serve_cases hserve with hperform | ⟨hlost, e, he, rfl, heffect⟩
    · cases r with
      | error e => exact hacts (herror e) hperform
      | ok r =>
        obtain ⟨x, hx⟩ := hdone r
        exact hacts hx hperform
    · change Settles S sdk m₀ store _ (k (.error e)) s₂
      rw [herror e]
      refine ⟨rfl, ?_⟩
      have hquiet : Same s₁ s₂ → Settled S sdk m₀ store
          (h ++ [⟨.query st, s₁, failed e (.query st), s₂⟩]) (.error e) :=
        fun hsame => settled_lost hway.quiet hsame hlost
      rcases heffect with ⟨-, rfl⟩ | ⟨hla, rfl⟩
      · exact hquiet (same_refl _)
      · cases hexec : st.exec sdk s₁.tables with
        | error e' =>
          have hperform : ((engine sdk).perform S.client (.query st) s₁).2 = s₁ := by
            simp [Engine.perform, engine, hexec]
          apply hquiet
          rw [hperform]
          exact same_refl s₁
        | ok p =>
          obtain ⟨r, ws⟩ := p
          have hperform : (engine sdk).perform S.client (.query st) s₁ =
              (.ok r, (engine sdk).commit ws s₁) := by
            simp [Engine.perform, engine, hexec]
          by_cases hne : ws = []
          · subst hne
            apply hquiet
            rw [hperform]
            exact same_refl s₁
          · obtain ⟨-, -, a, ha⟩ := hws s₁ r ws hrely hexec hne
            have hwhole := hrun s₁ hrely
            rw [hperform] at hwhole ⊢
            have hdone' : (k (.ok r)).run ((engine sdk).perform S.client)
                ((engine sdk).commit ws s₁) = ((.ok a, store), (engine sdk).commit ws s₁) := by
              rw [ha]
              rfl
            rw [hdone'] at hwhole
            refine .unheard rfl rfl hway.quiet quiet_nil ⟨hla, ?_⟩ ⟨a, ?_⟩ ?_
            · rw [hperform] at hlost
              exact hlost
            · rw [hwhole]
            · rw [hwhole]

/-! ### The gate -/

variable {g : String × String}

/-- A setting among clients that let the vertices and the projection records stand. -/
structure Standing (S : Setting env) : Prop where
  refl : ∀ s, S.rely s s
  trans : ∀ a b c, S.rely a b → S.rely b c → S.rely a c
  stands : ∀ a b, S.rely a b → Stands env a b
  drifts : ∀ a b, S.drift a b → Stands env a b

/-- The state in which a graph store works: the tables are sound and the gate is open. -/
structure Ready (env : Env F X) (g : String × String) (store : GraphStore) (s : Database) :
    Prop where
  consistent : Consistent env s
  sound : Sound env s.tables
  readable : store.Readable env g s.tables

lemma readable_stands {s' : Database} (h : store.Readable env g s.tables)
    (hstands : Stands env s s') : store.Readable env g s'.tables := by
  obtain ⟨row, hrow, hserves⟩ := h.status
  refine ⟨h.toAt, h.opened, row, ?_, hserves⟩
  rw [hstands.past.1]
  exact hrow

lemma Ready.later {s' : Database} (h : Ready env g store s) (hc : Consistent env s')
    (hstands : Stands env s s') : Ready env g store s' :=
  ⟨hc, hstands.sound h.sound, readable_stands h.readable hstands⟩

lemma Ready.rely {s' : Database} (h : Ready env g store s) (hS : Standing S) (hrely : S.rely s s') :
    Ready env g store s' := h.later (Setting.consistent_of_rely h.consistent hrely) (hS.stands _ _ hrely)

/-- A row of the own run passes its check. -/
lemma GraphStore.assertScopedRow_done {scope runId : String} {logical : Option (String × String)}
    (haddress : (scope, runId) = store.address) (hlogical : ∀ ids ∈ logical, ids.1 = ids.2) :
    assertScopedRow scope runId logical store = .done (.ok (), store) := by
  obtain ⟨rfl, rfl⟩ := Prod.mk.inj haddress
  have hsame : (logical.any fun ids => ids.1 ≠ ids.2) = false := by
    cases logical with
    | none => rfl
    | some ids => simp [hlogical ids rfl]
  have hfirst : raiseIf (store.scope ≠ store.scope ∨ store.runId ≠ store.runId)
      ⟨.surrealProviderError, "a graph record crossed its scope/run boundary"⟩ = .ok () := by
    simp [raiseIf]
  have hsecond : raiseIf (logical.any fun ids => ids.1 ≠ ids.2)
      ⟨.surrealProviderError, "an opaque graph record ID resolved incorrectly"⟩ = .ok () := by
    rw [hsame]
    rfl
  change ((lift (raiseIf (store.scope ≠ store.scope ∨ store.runId ≠ store.runId) _) >>= fun _ =>
    lift (raiseIf (logical.any fun ids => ids.1 ≠ ids.2) _)) : Py GraphStore Unit) store = _
  rw [hfirst, hsecond]
  rfl

open GraphStore Setting in
/-- The gate asks for the status record, and lets a ready store pass. -/
theorem wp_gate (hS : Standing S) (hsha : CollisionFree env) (hready : Ready env g store s)
    {Q : Hist → Except PyErr Unit × GraphStore → Database → Prop}
    (hok : ∀ s₁ r, S.rely s s₁ → Ready env g store s₁ →
      Q (h ++ [⟨.query (.selectProjection store.projectionRecord), s₁, r, s₁⟩]) (.ok (), store) s₁)
    (hlost : ∀ s₁ r e, S.rely s s₁ →
      S.Lost sdk ⟨.query (.selectProjection store.projectionRecord), s₁, r, s₁⟩ →
      Q (h ++ [⟨.query (.selectProjection store.projectionRecord), s₁, r, s₁⟩]) (.error e, store)
        s₁) : S.Wp sdk Q h (assertReadable store) s := by
  have hopen : ∀ {β : Type} {Q : Hist → Except PyErr β × GraphStore → Database → Prop} {h : Hist}
      {f : Unit → Py GraphStore β} {s : Database}, S.Wp sdk Q h (f () store) s →
      S.Wp sdk Q h ((ensureOpen >>= f) store) s := by
    intro β Q h f s hf
    unfold ensureOpen
    rw [wp_bind, wp_bind, wp_get, wp_andThen_ok]
    have hpass : raiseIf (store.closed = true) ⟨.closedStoreError,
        "the SurrealGraphStore is closed"⟩ = .ok () := by
      simp [raiseIf, hready.readable.opened]
    rw [hpass]
    exact hf
  unfold assertReadable
  rw [wp_bind, wp_get, wp_andThen_ok]
  apply hopen
  unfold projectionStatus
  rw [wp_bind]
  apply hopen
  unfold projectionRow
  rw [wp_bind, wp_bind, wp_get, wp_andThen_ok, wp_bind]
  refine Setting.wp_read (fun t r ws hexec => ?_) hready.consistent ?_
  · exact (Prod.mk.inj (Except.ok.inj hexec)).2.symm
  · intro s₁ r hrely hc₁ hanswer
    have hready₁ := hready.rely hS hrely
    obtain ⟨row, hrow, hserves⟩ := hready₁.readable.status
    rcases hanswer with rfl | ⟨hl, e, -, rfl⟩
    · have hscope : (row.scope, row.runId) = store.address := by
        rw [hready₁.readable.address]
        exact (key_address hsha (g := (row.scope, row.runId))
          (hready₁.sound.projection _ _ hrow) hready₁.readable.record).1
      have hscoped := assertScopedRow_done hscope not_logical
      have hanswer : (Stmt.exec sdk (.selectProjection store.projectionRecord) s₁.tables).map
          Prod.fst = .ok (some row) := by
        simp [Stmt.exec, Except.map, hrow]
      rw [hanswer, wp_done, wp_andThen_ok]
      simp only
      rw [wp_bind, hscoped, wp_done, wp_andThen_ok, wp_pure, wp_andThen_ok]
      simp only
      rw [wp_pure, wp_andThen_ok, wp_lift]
      have hpass : raiseIf (¬ store.serves row.status) ⟨.projectionUnavailableError,
          "projection is " ++ row.status ++ "; current-state data is incomplete"⟩ = .ok () := by
        simp [raiseIf, hserves]
      rw [hpass]
      exact hok s₁ _ hrely hready₁
    · exact hlost s₁ _ e hrely hl

theorem settles_gate (hS : Standing S) (hsha : CollisionFree env) (hready : Ready env g store s)
    {f : Unit → Py GraphStore α} (hway : OnWay S sdk m₀ store (GraphStore.assertReadable >>= f) h s)
    (hf : ∀ h' s', Ready env g store s' → OnWay S sdk m₀ store (f ()) h' s' →
      Settles S sdk m₀ store h' (f () store) s') :
    Settles S sdk m₀ store h ((GraphStore.assertReadable >>= f) store) s := by
  unfold Settles
  rw [Setting.wp_bind]
  refine wp_gate hS hsha hready ?_ ?_
  · intro s₁ r hrely hready₁
    rw [Setting.wp_andThen_ok]
    refine hf _ s₁ hready₁ ⟨hway.quiet.concat (same_refl s₁), fun s' hrely' => ?_, ?_⟩
    · have hready' := hready₁.rely hS hrely'
      rw [hway.same s' (hS.trans _ _ _ hrely hrely'), alone_bind,
        GraphStore.alone_assertReadable hsha hready'.sound.toPlaced hready'.readable, aloneThen_ok]
    · exact .inr ⟨h, _, rfl, rfl, rfl⟩
  · intro s₁ r e hrely hl
    exact ⟨rfl, settled_lost hway.quiet (same_refl s₁) hl⟩

/-! ### One statement after the gate -/

/-- A method without calls has ended. -/
lemma Makes.done {ℓ β : Type} {m : Py ℓ β} (hm : Makes (fun _ => False) m) (l : ℓ) :
    ∃ x, m l = .done (x, l) := by
  have hcalls := hm l
  cases hp : m l with
  | done x =>
    rw [hp] at hcalls
    exact ⟨x.1, congrArg Prog.done (Prod.ext rfl hcalls)⟩
  | call c k =>
    rw [hp] at hcalls
    obtain ⟨⟨st, -, hst⟩, -⟩ := hcalls
    exact hst.elim

lemma GraphStore.makes_assertScopedRow {P : Stmt → Prop} (scope runId : String)
    (logical : Option (String × String)) : Makes P (assertScopedRow scope runId logical) :=
  Makes.get fun _ => (makes_lift _).bind fun _ => makes_lift _

/-- A read whose answer decides the rest. -/
lemma settles_read (st : Stmt) {f : st.Reply → Py GraphStore α}
    (hm : m store = (query st >>= f) store) (hst : (engine sdk).Reads st)
    (hf : ∀ r, Makes (fun _ => False) (f r)) (hc : Consistent env s)
    (hway : OnWay S sdk m₀ store m h s) : Settles S sdk m₀ store h (m store) s := by
  refine settles_last hm (fun e => rfl) (fun r => ?_) hc hway ?_
  · exact (hf r).done store
  · intro s₁ r ws _ hexec hne
    exact absurd (hst _ _ _ hexec) hne

end rules

end ActiveGraphSurreal
