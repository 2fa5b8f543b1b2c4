import ActiveGraphSurreal.Proofs.Settling

/-!
# The moment of a call

The calls that make one statement after the gate settle at this statement. So does
`remove_object`, which looks at the vertex before it replaces it.
-/

namespace ActiveGraphSurreal

open Library

set_option linter.unusedSectionVars false

variable {F X : Type} [Json.ScalarText F] {env : Env F X} {sdk : Sdk} {store : GraphStore}

variable {lostCall lostAnswer : Prop} {i : Nat} {c : GraphCall F X} {g : String × String}
  {h : Hist} {s : Database}

lemma standing_client : Standing (graphClient env sdk lostCall lostAnswer i store c) where
  refl s := ⟨(guarded env).rely_refl i s, .of_same sdk (same_refl s)⟩
  trans a b c h h' := ⟨(guarded env).rely_trans i a b c h.1 h'.1, h.2.trans h'.2⟩
  stands _ _ h := h.2
  drifts _ _ h := h.2

/-- A write that is the plan of its call. -/
lemma settles_write (hsha : CollisionFree env) (hclear : c ≠ .clear)
    (hready : Ready env g store s) {m : Py GraphStore c.Value} {st : Stmt}
    {k : Answer (.query st) → Prog Call Answer (Except PyErr c.Value × GraphStore)}
    (hm : m store = .call (.query st) k) (herror : ∀ e, k (.error e) = .done (.error e, store))
    (hdone : ∀ r, ∃ a, k (.ok r) = .done (.ok a, store))
    (hway : OnWay (graphClient env sdk lostCall lostAnswer i store c) sdk (c.code env) store m h s)
    (hplan : ∀ s₁ r ws, Stands env s s₁ → Ready env g store s₁ →
      st.exec sdk s₁.tables = .ok (r, ws) → c.plan env sdk store s₁.tables = .ok ws) :
    Settles (graphClient env sdk lostCall lostAnswer i store c) sdk (c.code env) store h (m store)
      s := by
  refine settles_last hm herror (fun r => ?_) hready.consistent hway ?_
  · obtain ⟨a, ha⟩ := hdone r
    exact ⟨_, ha⟩
  · intro s₁ r ws hrely hexec _
    have hready₁ := hready.rely standing_client hrely
    have hws := hplan s₁ r ws hrely.2 hready₁ hexec
    have hlawful := lawful_plan hsha hready₁.sound hready₁.readable hclear hws
    exact ⟨keeping_plan hclear hws, ⟨hlawful, ⟨g, hready₁.readable⟩, hws⟩, hdone r⟩

lemma lift_done {ℓ β : Type} (x : Except PyErr β) (l : ℓ) :
    (lift x : Py ℓ β) l = .done (x, l) := by
  cases x with
  | error e => rfl
  | ok a => rfl

lemma known_vertexRecordId (id : String) : GraphStore.vertexRecordId env id store =
    .done (vertexKey env store.address id, store) := lift_done ..

lemma known_relationRecordId (id : String) : GraphStore.relationRecordId env id store =
    .done (relationKey env store.address id, store) := lift_done ..

lemma known_patchRecordId (id : String) : GraphStore.patchRecordId env id store =
    .done (patchKey env store.address id, store) := lift_done ..

variable (env sdk lostCall lostAnswer i store c) in
/-- The call settles from every state in which its store is ready. -/
def Point (g : String × String) : Prop :=
  ∀ s, Ready env g store s → Settles (graphClient env sdk lostCall lostAnswer i store c) sdk
    (c.code env) store [] (c.code env store) s

lemma point_putObject (hsha : CollisionFree env) (obj : Object F X) :
    Point env sdk store lostCall lostAnswer i (.putObject obj) g := by
  intro s hready
  refine settles_gate standing_client hsha hready onWay_start fun h s hready hway => ?_
  refine settles_known standing_client.refl rfl hway fun self hself hway => ?_
  obtain rfl := Except.ok.inj hself
  refine settles_known standing_client.refl (lift_done ..) hway fun seq hseq hway => ?_
  refine settles_known standing_client.refl (lift_done ..) hway fun record hrecord hway => ?_
  refine settles_known standing_client.refl (known_vertexRecordId _) hway fun vertex hkey hway => ?_
  refine settles_write hsha (by simp) hready rfl (fun _ => rfl) (fun _ => ⟨(), rfl⟩) hway ?_
  intro s₁ r ws _ _ hexec
  obtain ⟨row, hrow, rfl⟩ := upsertVertex_writes hexec
  exact bind_eq_ok.mpr ⟨seq, hseq, bind_eq_ok.mpr ⟨record, hrecord,
    bind_eq_ok.mpr ⟨vertex, hkey, bind_eq_ok.mpr ⟨row, hrow, rfl⟩⟩⟩⟩

lemma point_removeRelation (hsha : CollisionFree env) (id : String) :
    Point env sdk store lostCall lostAnswer i (.removeRelation id : GraphCall F X) g := by
  intro s hready
  refine settles_gate standing_client hsha hready onWay_start fun h s hready hway => ?_
  refine settles_known standing_client.refl (known_relationRecordId _) hway
    fun relation hkey hway => ?_
  refine settles_write hsha (by simp) hready rfl (fun _ => rfl) (fun _ => ⟨(), rfl⟩) hway ?_
  intro s₁ r ws _ _ hexec
  rw [← (Prod.mk.inj (Except.ok.inj hexec)).2]
  exact bind_eq_ok.mpr ⟨relation, hkey, rfl⟩

lemma point_putPatch (hsha : CollisionFree env) (patch : Patch F X) :
    Point env sdk store lostCall lostAnswer i (.putPatch patch) g := by
  intro s hready
  refine settles_gate standing_client hsha hready onWay_start fun h s hready hway => ?_
  refine settles_known standing_client.refl rfl hway fun self hself hway => ?_
  obtain rfl := Except.ok.inj hself
  refine settles_known standing_client.refl (known_patchRecordId _) hway fun record hkey hway => ?_
  refine settles_known standing_client.refl (lift_done ..) hway fun content hcontent hway => ?_
  refine settles_write hsha (by simp) hready rfl (fun _ => rfl) (fun _ => ⟨(), rfl⟩) hway ?_
  intro s₁ r ws _ _ hexec
  obtain ⟨row, hrow, rfl⟩ := upsertPatch_writes hexec
  exact bind_eq_ok.mpr ⟨record, hkey, bind_eq_ok.mpr ⟨content, hcontent,
    bind_eq_ok.mpr ⟨row, hrow, rfl⟩⟩⟩

lemma point_removePatch (hsha : CollisionFree env) (id : String) :
    Point env sdk store lostCall lostAnswer i (.removePatch id : GraphCall F X) g := by
  intro s hready
  refine settles_gate standing_client hsha hready onWay_start fun h s hready hway => ?_
  refine settles_known standing_client.refl (known_patchRecordId _) hway fun record hkey hway => ?_
  refine settles_write hsha (by simp) hready rfl (fun _ => rfl) (fun _ => ⟨(), rfl⟩) hway ?_
  intro s₁ r ws _ _ hexec
  rw [← (Prod.mk.inj (Except.ok.inj hexec)).2]
  exact bind_eq_ok.mpr ⟨record, hkey, rfl⟩

variable (sdk) in
lemma reads_known {st : Stmt} {answer : Tables → st.Reply}
    (h : ∀ t, st.exec sdk t = .ok (answer t, [])) : (engine sdk).Reads st := by
  intro t r ws hexec
  exact (Prod.mk.inj (Except.ok.inj ((h t).symm.trans hexec))).2.symm

lemma reads_selectObjects {scope runId : String} {filter : ObjectFilter} {ordered : Bool}
    {limit : Option Int} : (engine sdk).Reads (.selectObjects scope runId filter ordered limit) :=
  fun _ _ _ hexec => takeLimit_writes hexec

lemma point_queryObjects (hsha : CollisionFree env) (plan : ObjectQuery F X) :
    Point env sdk store lostCall lostAnswer i (.queryObjects plan) g := by
  intro s hready
  refine settles_gate standing_client hsha hready onWay_start fun h s hready hway => ?_
  by_cases hexists : plan.resultMode = "exists" ∧ (plan.where_.getD []).isEmpty
  · refine settles_read (.selectObjects store.scope store.runId
      (GraphStore.objectFilter plan.type) false (some 1)) ?_ reads_selectObjects
      (fun rows => makes_pure ⟨[], [], some !rows.isEmpty⟩) hready.consistent hway
    simp only [hexists, and_self, if_true]
    change ((query (.selectObjects store.scope store.runId _ false (some 1)) >>=
      fun rows : List VertexRow => pure !rows.isEmpty) >>= _) store = _
    exact congrFun (Method.bind_assoc _ _ _) store
  · refine settles_read (.selectObjects store.scope store.runId
      (GraphStore.objectFilter plan.type) true
      (if (plan.where_.getD []).isEmpty then plan.limit else none)) ?_ reads_selectObjects
      (fun rows => (makes_lift (rows.mapM (objectFromRow env))).bind fun objects =>
        makes_pure ⟨objects, plan.where_.getD [], none⟩) hready.consistent hway
    simp only [hexists, if_false]
    change ((query (.selectObjects store.scope store.runId _ true _) >>=
      fun rows : List VertexRow => lift (rows.mapM (objectFromRow env))) >>= _) store = _
    exact congrFun (Method.bind_assoc _ _ _) store

theorem point_reads (hsha : CollisionFree env) (hreads : c.Reads) (hsingle : c.Single) :
    Point env sdk store lostCall lostAnswer i c g := by
  intro s hready
  cases c with
  | getObject id =>
    refine settles_gate standing_client hsha hready onWay_start fun h s hready hway => ?_
    refine settles_known standing_client.refl (known_vertexRecordId _) hway
      fun vertex hkey hway => ?_
    refine settles_read _ rfl (reads_known sdk fun _ => rfl) (fun row => ?_)
      hready.consistent hway
    cases row with
    | none => exact makes_pure none
    | some row =>
      have hrow : Makes (fun _ => False) (if row.objectPresent then do
          GraphStore.assertScopedRow row.scope row.runId (some (row.objectId, id))
          return some (← lift (objectFromRow env row))
        else return none : Py GraphStore (Option (Object F X))) := by
        split
        · refine (GraphStore.makes_assertScopedRow _ _ _).bind fun _ => ?_
          exact (makes_lift _).bind fun obj => makes_pure (some obj)
        · exact makes_pure none
      exact hrow
  | allObjects =>
    refine settles_gate standing_client hsha hready onWay_start fun h s hready hway => ?_
    refine settles_known standing_client.refl rfl hway fun self hself hway => ?_
    exact settles_read _ rfl reads_selectObjects (fun _ => makes_lift _)
      hready.consistent hway
  | getRelation id =>
    refine settles_gate standing_client hsha hready onWay_start fun h s hready hway => ?_
    refine settles_known standing_client.refl (known_relationRecordId _) hway
      fun relation hkey hway => ?_
    refine settles_read _ rfl (reads_known sdk fun _ => rfl) (fun row => ?_)
      hready.consistent hway
    cases row with
    | none => exact makes_pure none
    | some row =>
      refine (GraphStore.makes_assertScopedRow _ _ _).bind fun _ => ?_
      exact (makes_lift _).bind fun rel => makes_pure (some rel)
  | allRelations =>
    refine settles_gate standing_client hsha hready onWay_start fun h s hready hway => ?_
    exact settles_read _ rfl (reads_known sdk fun _ => rfl)
      (fun _ => makes_lift _) hready.consistent hway
  | queryObjects plan => exact point_queryObjects hsha plan s hready
  | findObjects objectType =>
    refine settles_gate standing_client hsha hready onWay_start fun h s hready hway => ?_
    exact settles_read _ rfl reads_selectObjects (fun _ => makes_lift _)
      hready.consistent hway
  | findObjectsInTypes types =>
    cases types with
    | nil => exact settles_done standing_client.refl rfl onWay_start
    | cons type types =>
      refine settles_gate standing_client hsha hready onWay_start fun h s hready hway => ?_
      exact settles_read _ rfl reads_selectObjects
        (fun _ => makes_lift _) hready.consistent hway
  | findRelations source target relationType =>
    refine settles_gate standing_client hsha hready onWay_start fun h s hready hway => ?_
    exact settles_read _ rfl (reads_known sdk fun _ => rfl)
      (fun _ => makes_lift _) hready.consistent hway
  | getPatch id =>
    refine settles_gate standing_client hsha hready onWay_start fun h s hready hway => ?_
    refine settles_known standing_client.refl (known_patchRecordId _) hway
      fun record hkey hway => ?_
    refine settles_read _ rfl (reads_known sdk fun _ => rfl) (fun row => ?_)
      hready.consistent hway
    cases row with
    | none => exact makes_pure none
    | some row =>
      refine (GraphStore.makes_assertScopedRow _ _ _).bind fun _ => ?_
      exact (makes_lift _).bind fun patch => makes_pure (some patch)
  | allPatches =>
    refine settles_gate standing_client hsha hready onWay_start fun h s hready hway => ?_
    refine settles_known standing_client.refl rfl hway fun self hself hway => ?_
    exact settles_read _ rfl (reads_known sdk fun _ => rfl)
      (fun _ => makes_lift _) hready.consistent hway
  | neighborhood objectId depth => exact hsingle.elim
  | _ => exact hreads.elim

lemma known_placeholderContent (id : String) : GraphStore.placeholderContent id store =
    .done ((objectSeq id).map (store.placeholderRow id), store) := by
  change ((lift (objectSeq id) >>= fun seq => pure (store.placeholderRow id seq)) :
    Py GraphStore VertexRow) store = _
  cases objectSeq id with
  | error e => rfl
  | ok seq => rfl

/-- What `removeObject` does with the vertex that it finds. -/
def GraphStore.replaceFound (vertex : RecordId .agVertex) (id : String) :
    Option VertexRow → Py GraphStore Unit
  | none => pure ()
  | some row => do
    assertScopedRow row.scope row.runId (some (row.objectId, id))
    let content ← placeholderContent id
    query (.upsertVertex vertex content)

lemma removeObject_eq (id : String) : GraphStore.removeObject env id = (do
    GraphStore.assertReadable
    let vertex ← GraphStore.vertexRecordId env id
    query (.selectVertex vertex) >>= GraphStore.replaceFound vertex id) := by
  refine congrArg (bind _) (funext fun _ => congrArg (bind _) (funext fun vertex =>
    congrArg (bind _) (funext fun found => ?_)))
  cases found with
  | none => rfl
  | some row => rfl

/-- A vertex that was found is still there when the placeholder replaces it. -/
lemma point_removeObject (hsha : CollisionFree env) (id : String) :
    Point env sdk store lostCall lostAnswer i (.removeObject id : GraphCall F X) g := by
  intro s hready
  change Settles _ sdk _ store [] (GraphStore.removeObject env id store) s
  rw [removeObject_eq]
  refine settles_gate standing_client hsha hready
    (onWay_start.congr (congrFun (removeObject_eq id) store)) fun h s hready hway => ?_
  refine settles_known standing_client.refl (known_vertexRecordId _) hway fun vertex hkey hway => ?_
  have hkey' : vertexKey env g id = .ok vertex := hready.readable.address ▸ hkey
  let replace : Py GraphStore Unit :=
    GraphStore.placeholderContent id >>= fun content => query (.upsertVertex vertex content)
  have hfound : ∀ s' : Database, Ready env g store s' → ∀ row,
      s'.tables.vertex.lookup vertex.key = some row →
      GraphStore.replaceFound vertex id (some row) store = replace store := by
    intro s' hready' row hrow
    obtain ⟨haddress, hid⟩ := GraphStore.vertex_fields hsha hready'.sound.toPlaced hkey' hrow
    have hscope : (row.scope, row.runId) = store.address :=
      haddress.trans hready'.readable.address.symm
    have hids : ∀ ids ∈ some (row.objectId, id), ids.1 = ids.2 := by simp [hid]
    change (GraphStore.assertScopedRow row.scope row.runId (some (row.objectId, id)) store).bind _ = _
    rw [GraphStore.assertScopedRow_done hscope hids]
    rfl
  have hrun : ∀ s', (graphClient env sdk lostCall lostAnswer i store
      (.removeObject id : GraphCall F X)).rely s s' →
      alone sdk i (GraphCall.code env (.removeObject id)) store s' =
        alone sdk i (GraphStore.replaceFound vertex id (s'.tables.vertex.lookup vertex.key)) store
          s' := by
    intro s' hrely
    refine (hway.same s' hrely).trans ?_
    rw [alone_bind, alone_read sdk i store s' rfl, aloneThen_ok]
  unfold Settles
  rw [Setting.wp_bind]
  refine Setting.wp_read (reads_known sdk fun _ => rfl) hready.consistent ?_
  intro s₁ r hrely hc₁ hanswer
  have hready₁ := hready.rely standing_client hrely
  rcases hanswer with rfl | ⟨hl, e, -, rfl⟩
  · change Settles _ sdk _ store _
      (GraphStore.replaceFound vertex id (s₁.tables.vertex.lookup vertex.key) store) s₁
    cases hrow : s₁.tables.vertex.lookup vertex.key with
    | none =>
      refine ⟨rfl, settled_here hway.quiet rfl ?_⟩
      refine (hrun s₁ hrely).trans ?_
      rw [hrow]
      rfl
    | some row =>
      rw [hfound s₁ hready₁ row hrow]
      have hway₁ : OnWay (graphClient env sdk lostCall lostAnswer i store (.removeObject id)) sdk
          (GraphCall.code env (.removeObject id)) store replace (h ++ [⟨.query (.selectVertex vertex),
            s₁, .ok (s₁.tables.vertex.lookup vertex.key), s₁⟩]) s₁ := by
        refine ⟨hway.quiet.concat (same_refl s₁), fun s' hrely' => ?_, .inr ⟨h, _, rfl, rfl, rfl⟩⟩
        have hready' := hready₁.rely standing_client hrely'
        obtain ⟨row', hrow'⟩ := Option.ne_none_iff_exists'.mp
          (hrely'.2.past.2 vertex.key (Option.ne_none_iff_exists'.mpr ⟨row, hrow⟩))
        refine (hrun s' (standing_client.trans _ _ _ hrely hrely')).trans ?_
        rw [hrow']
        unfold alone
        rw [hfound s' hready' row' hrow']
      refine settles_known standing_client.refl (known_placeholderContent id) hway₁
        fun content hcontent hway₁ => ?_
      refine settles_write hsha (by simp) hready₁ rfl (fun _ => rfl) (fun _ => ⟨(), rfl⟩) hway₁ ?_
      intro s₂ r ws hstands _ hexec
      obtain ⟨stored, hstored, rfl⟩ := upsertVertex_writes hexec
      cases hseq : objectSeq id with
      | error e =>
        rw [hseq] at hcontent
        cases hcontent
      | ok seq =>
        rw [hseq] at hcontent
        obtain rfl := Except.ok.inj hcontent
        have hthere : s₂.tables.vertex.lookup vertex.key ≠ none :=
          hstands.past.2 vertex.key (Option.ne_none_iff_exists'.mpr ⟨row, hrow⟩)
        have hstub : store.stub sdk vertex id = .ok [.vertex vertex.key (some stored)] :=
          bind_eq_ok.mpr ⟨seq, hseq, bind_eq_ok.mpr ⟨stored, hstored, rfl⟩⟩
        exact GraphStore.removeObjectPlan_iff.mpr ⟨vertex, hkey, .inr ⟨hthere, hstub⟩⟩
  · exact ⟨rfl, settled_lost hway.quiet (same_refl s₁) hl⟩

end ActiveGraphSurreal
