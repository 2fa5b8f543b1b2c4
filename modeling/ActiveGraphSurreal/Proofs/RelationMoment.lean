import ActiveGraphSurreal.Proofs.Moments

/-!
# The moment of a relation

`put_relation` works in a transaction. What it has planned on the snapshot is still the plan
on the tables at its commit, when no vertex that it creates has been written since, which a
commit without a conflict makes sure. So it settles at its commit.
-/

namespace ActiveGraphSurreal

open Library

set_option linter.unusedSectionVars false

variable {F X : Type} [Json.ScalarText F] {env : Env F X} {sdk : Sdk} {store : GraphStore}

variable {lostCall lostAnswer : Prop} {i : Nat} {c : GraphCall F X} {g : String × String}
  {h : Hist} {s : Database}

/-! ### The plan of a relation at its commit -/

/-- Writes put a row under a key or leave it, whatever the tables. -/
lemma lookup_applyAll (sdk : Sdk) (ws : List Write) (key : String) :
    (∀ t : Tables, ((engine sdk).applyAll ws t).vertex.lookup key = t.vertex.lookup key) ∨
    ∃ row, ∀ t : Tables, ((engine sdk).applyAll ws t).vertex.lookup key = row := by
  induction ws with
  | nil => exact .inl fun t => rfl
  | cons w ws ih =>
    rcases ih with hleft | ⟨row, hrow⟩
    · have hfirst : (∀ t : Tables, (w.apply t).vertex.lookup key = t.vertex.lookup key) ∨
          ∃ row, ∀ t : Tables, (w.apply t).vertex.lookup key = row := by
        cases w with
        | vertex key' row =>
          have hlookup : ∀ t : Tables, ((Write.vertex key' row).apply t).vertex.lookup key =
              if key = key' then row else t.vertex.lookup key := fun t => Records.lookup_write ..
          by_cases hkey : key = key'
          · refine .inr ⟨row, fun t => ?_⟩
            rw [hlookup, if_pos hkey]
          · refine .inl fun t => ?_
            rw [hlookup, if_neg hkey]
        | _ => exact .inl fun t => rfl
      rcases hfirst with hfirst | ⟨row, hfirst⟩
      · exact .inl fun t => (hleft (w.apply t)).trans (hfirst t)
      · exact .inr ⟨row, fun t => (hleft (w.apply t)).trans (hfirst t)⟩
    · exact .inr ⟨row, fun t => hrow (w.apply t)⟩

namespace GraphStore

lemma endpointPlan_congr {t t' : Tables} {vertex : RecordId .agVertex} (id : String)
    (h : t.vertex.lookup vertex.key = none ↔ t'.vertex.lookup vertex.key = none) :
    store.endpointPlan sdk t vertex id = store.endpointPlan sdk t' vertex id := by
  unfold endpointPlan
  cases hrow : t.vertex.lookup vertex.key with
  | none => rw [h.mp hrow]
  | some row =>
    obtain ⟨row', hrow'⟩ := Option.ne_none_iff_exists'.mp fun hnone => by
      rw [h.mpr hnone] at hrow
      cases hrow
    rw [hrow']

/-- The plan of an endpoint, after the same first writes to other tables. -/
lemma endpointPlan_later {t t' : Tables} {vertex : RecordId .agVertex} {id : String}
    (first : List Write) {ws' : List Write}
    (hplan : store.endpointPlan sdk ((engine sdk).applyAll first t) vertex id = .ok ws')
    (hkept : t.vertex.lookup vertex.key ≠ none → t'.vertex.lookup vertex.key ≠ none)
    (hcurrent : Target.record .agVertex vertex.key ∈ ws'.map Write.target →
      t.vertex.lookup vertex.key = t'.vertex.lookup vertex.key) :
    store.endpointPlan sdk ((engine sdk).applyAll first t') vertex id = .ok ws' := by
  rw [← hplan]
  apply endpointPlan_congr
  rcases lookup_applyAll sdk first vertex.key with hsame | ⟨row, hrow⟩
  · rw [hsame, hsame]
    rcases endpointPlan_iff.mp hplan with ⟨hsome, -⟩ | ⟨hnone, hstub⟩
    · rw [hsame] at hsome
      exact iff_of_false (hkept hsome) hsome
    · obtain ⟨n, seq, -, -, rfl⟩ := stub_iff.mp hstub
      rw [hcurrent (List.mem_singleton_self _)]
  · rw [hrow, hrow]

lemma transactionPlan_eq {t : Tables} {rel : Relation F X} {source target : RecordId .agVertex}
    {relation : RecordId .agRelation} {first : List Write}
    (hfirst : store.endpointPlan sdk t source rel.source = .ok first) :
    store.transactionPlan env sdk t rel source target relation =
      (store.endpointPlan sdk ((engine sdk).applyAll first t) target rel.target).bind fun second =>
        (relationToRecord env rel).map fun record =>
          first ++ second ++ store.relationWrites source target relation record := by
  unfold transactionPlan
  rw [hfirst]
  change (store.endpointPlan sdk ((engine sdk).applyAll first t) target rel.target).bind _ = _
  refine congrArg (Except.bind _) (funext fun second => ?_)
  cases relationToRecord env rel with
  | error e => rfl
  | ok record => rfl

lemma transactionPlan_error {t : Tables} {rel : Relation F X} {source target : RecordId .agVertex}
    {relation : RecordId .agRelation} {e : PyErr}
    (hfirst : store.endpointPlan sdk t source rel.source = .error e) :
    store.transactionPlan env sdk t rel source target relation = .error e := by
  unfold transactionPlan
  rw [hfirst]
  rfl

/-- What the transaction of a relation has planned on its snapshot is the plan on the tables at
its commit, when nobody has written the vertices that it creates. -/
theorem putRelationPlan_later {t t' : Tables} {rel : Relation F X} {ws : List Write}
    (hplan : store.putRelationPlan env sdk t rel = .ok ws)
    (hkept : ∀ key, t.vertex.lookup key ≠ none → t'.vertex.lookup key ≠ none)
    (hcurrent : ∀ key, Target.record .agVertex key ∈ ws.map Write.target →
      t.vertex.lookup key = t'.vertex.lookup key) :
    store.putRelationPlan env sdk t' rel = .ok ws := by
  obtain ⟨source, target, relation, hsource, htarget, hrelation, hplan⟩ :=
    putRelationPlan_iff.mp hplan
  obtain ⟨first, second, record, hfirst, hsecond, hrecord, rfl⟩ := transactionPlan_iff.mp hplan
  refine putRelationPlan_iff.mpr ⟨source, target, relation, hsource, htarget, hrelation, ?_⟩
  refine transactionPlan_iff.mpr ⟨first, second, record, ?_, ?_, hrecord, rfl⟩
  · refine endpointPlan_later [] hfirst (hkept _) fun hmem => hcurrent _ ?_
    simp only [List.map_append, List.mem_append]
    exact .inl (.inl hmem)
  · refine endpointPlan_later first hsecond (hkept _) fun hmem => hcurrent _ ?_
    simp only [List.map_append, List.mem_append]
    exact .inl (.inr hmem)

end GraphStore

/-! ### The transaction of a relation -/

variable {rel : Relation F X} {start : Nat} {t₀ : Tables}

/-- A transaction has begun on the given tables. -/
def Begun (env : Env F X) (g : String × String) (store : GraphStore) (t₀ : Tables) (h : Hist) :
    Prop :=
  ∃ h₁ rec h₂, h = h₁ ++ rec :: h₂ ∧ rec.before.tables = t₀ ∧ Ready env g store rec.before

/-- The state in a transaction that began on `t₀` and has made some writes. -/
structure Amid (env : Env F X) (g : String × String) (i : Nat) (store : GraphStore) (t₀ : Tables)
    (start : Nat) (h : Hist) (s : Database) (ws : List Write) : Prop where
  quiet : Quiet h
  begun : Begun env g store t₀ h
  ready : Ready env g store s
  tx : s.tx i = some ⟨t₀, start, ws⟩
  current : (standing env).TxOk s ⟨t₀, start, ws⟩

lemma Begun.concat (hb : Begun env g store t₀ h) (rec : Rec) :
    Begun env g store t₀ (h ++ [rec]) := by
  obtain ⟨h₁, rec', h₂, rfl, ht, hready⟩ := hb
  exact ⟨h₁, rec', h₂ ++ [rec], by simp, ht, hready⟩

/-- A statement in the transaction. -/
lemma Amid.step {ws ws' : List Write} (ha : Amid env g i store t₀ start h s ws) (rec : Rec)
    (hstands : Stands env s rec.after) (hc : Consistent env rec.after)
    (hsame : Same rec.before rec.after) (htx : rec.after.tx i = some ⟨t₀, start, ws'⟩) :
    Amid env g i store t₀ start (h ++ [rec]) rec.after ws' where
  quiet := ha.quiet.concat hsame
  begun := ha.begun.concat rec
  ready := ha.ready.later hc hstands
  tx := htx
  current := hstands.tx _ ha.current

/-- How the transaction can end. -/
def TxEnd (env : Env F X) (sdk : Sdk) (lostCall lostAnswer : Prop) (i : Nat) (store : GraphStore)
    (rel : Relation F X) (h : Hist) (x : Except PyErr Unit × GraphStore) (s : Database) : Prop :=
  Consistent env s ∧ h ≠ [] ∧ x.2 = store ∧
    Settled (graphClient env sdk lostCall lostAnswer i store (.putRelation rel)) sdk
      (GraphStore.putRelation env rel) store h x.1

lemma txEnd_lost {ws : List Write} (ha : Amid env g i store t₀ start h s ws) {rec : Rec} {e : PyErr}
    (hc : Consistent env rec.after) (hsame : Same rec.before rec.after)
    (hl : (graphClient env sdk lostCall lostAnswer i store (.putRelation rel)).Lost sdk rec) :
    TxEnd env sdk lostCall lostAnswer i store rel (h ++ [rec]) (.error e, store) rec.after :=
  ⟨hc, by simp, rfl, settled_lost ha.quiet hsame hl⟩

/-- A plan that fails fails at the beginning of the transaction. -/
lemma txEnd_plan (hsha : CollisionFree env) (hquiet : Quiet h) (hb : Begun env g store t₀ h)
    {e : PyErr} (hc : Consistent env s) (hplan : store.putRelationPlan env sdk t₀ rel = .error e) :
    TxEnd env sdk lostCall lostAnswer i store rel h (.error e, store) s := by
  obtain ⟨h₁, rec, h₂, rfl, ht, hready⟩ := hb
  have hdoes : Does sdk i (GraphStore.putRelation env rel) store rec.before _ :=
    GraphStore.does_putRelation hsha hready.sound.toPlaced hready.readable rel
  rw [ht, hplan] at hdoes
  have hsame : Same rec.before rec.after := hquiet rec (by simp)
  refine ⟨hc, by simp, rfl, .acts rfl (fun rec' hrec' => hquiet rec' (List.mem_append_left _ hrec'))
    (fun rec' hrec' => hquiet rec' (by simp [hrec'])) ?_ ?_⟩
  · rw [hdoes.answer]
    rfl
  · rw [hdoes.tables, hsame.tables]
    rfl

open GraphStore Setting in
/-- One endpoint in the transaction. -/
lemma wp_ensurePlaceholder (hsha : CollisionFree env) {ws : List Write} {id : String}
    {vertex : RecordId .agVertex} (ha : Amid env g i store t₀ start h s ws)
    (ht : Placed env ((engine sdk).applyAll ws t₀)) (hkey : vertexKey env g id = .ok vertex)
    {Q : Hist → Except PyErr Unit × GraphStore → Database → Prop}
    (hok : ∀ h' s' ws', store.endpointPlan sdk ((engine sdk).applyAll ws t₀) vertex id = .ok ws' →
      Amid env g i store t₀ start h' s' (ws ++ ws') → Q h' (.ok (), store) s')
    (herror : ∀ h' s' e, TxEnd env sdk lostCall lostAnswer i store rel h' (.error e, store) s' →
      Q h' (.error e, store) s')
    (hplan : ∀ e, store.endpointPlan sdk ((engine sdk).applyAll ws t₀) vertex id = .error e →
      store.putRelationPlan env sdk t₀ rel = .error e) :
    (graphClient env sdk lostCall lostAnswer i store (.putRelation rel)).Wp sdk Q h
      (ensurePlaceholderInTransaction vertex id store) s := by
  unfold ensurePlaceholderInTransaction
  rw [wp_bind]
  have hread : Stmt.exec sdk (.selectVertex vertex) ((engine sdk).view ⟨t₀, start, ws⟩) =
      .ok (((engine sdk).applyAll ws t₀).vertex.lookup vertex.key, []) := rfl
  refine wp_txRead ha.ready.consistent ha.tx hread ?_ ?_
  · intro s₁ s₂ hdrift hc₂ hsame htx₂
    have ha₂ := ha.step ⟨.txQuery (.selectVertex vertex), s₁,
      .ok (((engine sdk).applyAll ws t₀).vertex.lookup vertex.key), s₂⟩ hdrift.2 hc₂ hsame htx₂
    rw [wp_done, wp_andThen_ok]
    cases hrow : ((engine sdk).applyAll ws t₀).vertex.lookup vertex.key with
    | some row =>
      obtain ⟨haddress, hid⟩ := vertex_fields hsha ht hkey hrow
      have hscope : (row.scope, row.runId) = store.address :=
        haddress.trans ha.ready.readable.address.symm
      have hids : ∀ ids ∈ some (row.objectId, id), ids.1 = ids.2 := by simp [hid]
      have hnothing : store.endpointPlan sdk ((engine sdk).applyAll ws t₀) vertex id = .ok [] :=
        endpointPlan_iff.mpr (.inl ⟨by simp [hrow], rfl⟩)
      simp only
      rw [assertScopedRow_done hscope hids, wp_done]
      refine hok _ _ [] hnothing ?_
      rw [List.append_nil, ← hrow]
      exact ha₂
    | none =>
      have hstub : store.endpointPlan sdk ((engine sdk).applyAll ws t₀) vertex id =
          store.stub sdk vertex id := by
        unfold endpointPlan
        rw [hrow]
      simp only
      rw [wp_bind, known_placeholderContent, wp_done]
      rw [← hrow]
      cases hseq : objectSeq id with
      | error e =>
        refine herror _ _ e (txEnd_plan hsha ha₂.quiet ha₂.begun hc₂ (hplan e ?_))
        rw [hstub, stub_error hseq]
      | ok seq =>
        have hcontent := vertexKey_content ha.ready.readable.toAt hkey
          (show ((store.placeholderRow id seq).scope, (store.placeholderRow id seq).runId) =
            store.address from rfl) rfl
        have hexec := exec_createVertex sdk ht hcontent hrow
        rw [stub_ok hseq] at hstub
        change Wp sdk _ Q _ (.call (.txQuery (.createVertex vertex (store.placeholderRow id seq)))
          fun r => .done (r, store)) s₂
        refine wp_txQuery hc₂ ha₂.tx ?_ ?_
        · intro s₃ s₄ r ws' hrely hc₃ hc₄ hsame' hexec' htx₄
          obtain ⟨stored, hstored, rfl⟩ := createVertex_writes hexec'
          refine hok _ _ [.vertex vertex.key (some stored)] ?_ (ha₂.step ⟨.txQuery (.createVertex vertex
            (store.placeholderRow id seq)), s₃, .ok r, s₄⟩ ?_ hc₄ hsame' htx₄)
          · rw [hstub, hstored]
            rfl
          · exact hrely.2.trans (.of_same sdk hsame')
        · rintro s₃ s₄ e hrely hc₃ hc₄ hsame' (hexec' | ⟨-, hl⟩)
          · refine herror _ _ e (txEnd_plan hsha (ha₂.quiet.concat hsame') (ha₂.begun.concat _) hc₄
              (hplan e ?_))
            have hboth := hexec.symm.trans hexec'
            rw [hstub]
            cases hstored : (store.placeholderRow id seq).stored sdk with
            | error e' =>
              rw [hstored] at hboth
              rw [← Except.error.inj hboth]
              rfl
            | ok stored =>
              rw [hstored] at hboth
              cases hboth
          · exact herror _ _ e (txEnd_lost ha₂ hc₄ hsame' hl)
  · intro s₁ s₂ e hdrift hc₂ hsame _ hl
    exact herror _ _ e (txEnd_lost ha hc₂ hsame hl)

variable {source target : RecordId .agVertex} {relation : RecordId .agRelation} {ws : List Write}

/-- A transaction that may commit has planned what is planned on the tables now. -/
lemma Amid.plan (ha : Amid env g i store t₀ start h s ws)
    (hplan : store.putRelationPlan env sdk t₀ rel = .ok ws) {s₁ : Database}
    (hrely : (graphClient env sdk lostCall lostAnswer i store (.putRelation rel)).rely s s₁)
    (hfree : (engine sdk).conflicts s₁ ⟨t₀, start, ws⟩ = false) :
    store.putRelationPlan env sdk s₁.tables rel = .ok ws := by
  have hcurrent := hrely.2.tx _ ha.current
  exact GraphStore.putRelationPlan_later hplan hcurrent.2.1.2 fun key hkey =>
    hcurrent.current _ _ hfree hkey

/-- The commit is the moment of the relation. -/
lemma wp_relationCommit (hsha : CollisionFree env) (ha : Amid env g i store t₀ start h s ws)
    (hplan : store.putRelationPlan env sdk t₀ rel = .ok ws) (hne : ws ≠ []) :
    (graphClient env sdk lostCall lostAnswer i store (.putRelation rel)).Wp sdk
      (TxEnd env sdk lostCall lostAnswer i store rel) h ((commit : Py GraphStore Unit) store) s := by
  have hquiet : ∀ rec : Rec, h ++ [rec] ≠ [] := fun rec => by simp
  have hdoes : ∀ s₁, (graphClient env sdk lostCall lostAnswer i store (.putRelation rel)).rely s s₁ →
      (engine sdk).conflicts s₁ ⟨t₀, start, ws⟩ = false →
      Does sdk i (GraphStore.putRelation env rel) store s₁ (.ok ws) := by
    intro s₁ hrely hfree
    have hready₁ := ha.ready.rely standing_client hrely
    rw [← ha.plan hplan hrely hfree]
    exact GraphStore.does_putRelation hsha hready₁.sound.toPlaced hready₁.readable rel
  refine Setting.wp_commit ha.ready.consistent ha.tx hne ?_ ?_ ?_ ?_
  · intro s₁ hrely hc₁ hfree
    have hready₁ := ha.ready.rely standing_client hrely
    have hnow : GraphCall.plan env sdk store s₁.tables (.putRelation rel) = .ok ws :=
      ha.plan hplan hrely hfree
    have hprojection : ∀ w ∈ ws, w.OnProjection := fun w hw =>
      (keeping_plan (by simp) hnow w hw).onEntities.onProjection
    exact ⟨lawful_onProjection hprojection hc₁.1,
      lawful_plan hsha hready₁.sound hready₁.readable (by simp) hnow, ⟨g, hready₁.readable⟩, hnow⟩
  · intro s₁ s₂ hrely _ hc₂ hfree hcommits
    refine ⟨hc₂, hquiet _, rfl, .acts rfl ha.quiet quiet_nil ?_ ?_⟩
    · rw [(hdoes s₁ hrely hfree).answer]
      rfl
    · rw [(hdoes s₁ hrely hfree).tables]
      exact hcommits.1
  · intro s₁ s₂ hrely _ hc₂ hconflict hsame
    have hopen : s₁.tx i = some ⟨t₀, start, ws⟩ := (Setting.tx_of_rely hrely).trans ha.tx
    refine ⟨hc₂, hquiet _, rfl, .fails rfl (ha.quiet.concat hsame) ⟨_,
      List.mem_append_right _ (List.mem_cons_self ..), .inr ⟨rfl, _, hopen, hconflict⟩⟩⟩
  · rintro s₁ s₂ e hrely - hc₂ - hl (hsame | ⟨hla, hfree, hcommits⟩)
    · exact ⟨hc₂, hquiet _, rfl, settled_lost ha.quiet hsame hl⟩
    · refine ⟨hc₂, hquiet _, rfl, .unheard rfl rfl ha.quiet quiet_nil ⟨hla, hl⟩ ⟨(), ?_⟩ ?_⟩
      · rw [(hdoes s₁ hrely hfree).answer]
        rfl
      · rw [(hdoes s₁ hrely hfree).tables]
        exact hcommits.1

/-- The writes of the relation itself, once both endpoints are there. -/
def GraphStore.writeRelation (env : Env F X) (rel : Relation F X) (source target : RecordId .agVertex)
    (relation : RecordId .agRelation) : Py GraphStore Unit := do
  let self ← get
  txQuery (.deleteRelation relation)
  let record ← lift (relationToRecord env rel)
  txQuery (.insertRelation relation (self.relationContent source target record))
  commit

open GraphStore Setting in
lemma wp_writeRelation (hsha : CollisionFree env) (ha : Amid env g i store t₀ start h s ws)
    (ht : Placed env ((engine sdk).applyAll ws t₀))
    (hrelation : relationKey env g rel.id = .ok relation)
    (hplan : store.putRelationPlan env sdk t₀ rel = (relationToRecord env rel).map fun record =>
      ws ++ store.relationWrites source target relation record) :
    (graphClient env sdk lostCall lostAnswer i store (.putRelation rel)).Wp sdk
      (TxEnd env sdk lostCall lostAnswer i store rel) h
      (writeRelation env rel source target relation store) s := by
  have hdelete : Stmt.exec sdk (.deleteRelation relation) ((engine sdk).view ⟨t₀, start, ws⟩) =
      .ok ((), [.relation relation.key none]) := rfl
  unfold writeRelation
  rw [wp_bind, wp_get, wp_andThen_ok, wp_bind]
  refine wp_txStep ha.ready.consistent ha.tx hdelete ?_ ?_
  · intro s₁ s₂ hdrift hc₂ hsame htx₂
    have ha₂ := ha.step ⟨.txQuery (.deleteRelation relation), s₁, .ok (), s₂⟩ hdrift.2 hc₂ hsame htx₂
    rw [wp_done, wp_andThen_ok, wp_bind, wp_lift]
    cases hrecord : relationToRecord env rel with
    | error e =>
      rw [hrecord] at hplan
      exact txEnd_plan hsha ha₂.quiet ha₂.begun hc₂ hplan
    | ok record =>
      rw [hrecord] at hplan
      have hcontent : relationKey env
          ((store.relationContent source target record).scope,
            (store.relationContent source target record).runId)
          (store.relationContent source target record).relationId = .ok relation := by
        change relationKey env store.address record.relationId = _
        rw [(relationToRecord_fields hrecord).1, ha.ready.readable.address]
        exact hrelation
      have hinsert := exec_insertRelation sdk ht hcontent
      rw [← Engine.applyAll_append] at hinsert
      rw [wp_andThen_ok, wp_bind]
      refine wp_txStep hc₂ ha₂.tx hinsert ?_ ?_
      · intro s₃ s₄ hdrift' hc₄ hsame' htx₄
        have ha₄ := ha₂.step ⟨.txQuery (.insertRelation relation
          (store.relationContent source target record)), s₃, .ok (), s₄⟩ hdrift'.2 hc₄ hsame' htx₄
        rw [wp_done, wp_andThen_ok]
        refine wp_relationCommit hsha ha₄ ?_ (by simp)
        rw [hplan, List.append_assoc]
        rfl
      · intro s₃ s₄ e hdrift' hc₄ hsame' _ hl
        exact txEnd_lost ha₂ hc₄ hsame' hl
  · intro s₁ s₂ e hdrift hc₂ hsame _ hl
    exact txEnd_lost ha hc₂ hsame hl

open GraphStore Setting in
lemma wp_relationTransaction (hsha : CollisionFree env) (ha : Amid env g i store t₀ start h s [])
    (ht : Placed env t₀) (hsource : vertexKey env g rel.source = .ok source)
    (htarget : vertexKey env g rel.target = .ok target)
    (hrelation : relationKey env g rel.id = .ok relation) :
    (graphClient env sdk lostCall lostAnswer i store (.putRelation rel)).Wp sdk
      (TxEnd env sdk lostCall lostAnswer i store rel) h
      (relationTransaction env rel source target relation store) s := by
  have hat := ha.ready.readable.toAt
  have hwhole : store.putRelationPlan env sdk t₀ rel =
      store.transactionPlan env sdk t₀ rel source target relation := by
    unfold putRelationPlan
    rw [hat.address, hsource, htarget, hrelation]
    rfl
  unfold relationTransaction
  rw [wp_bind, wp_get, wp_andThen_ok, wp_bind]
  refine wp_ensurePlaceholder hsha ha ht hsource (fun h₁ s₁ first hfirst ha₁ => ?_)
    (fun _ _ _ hend => hend) fun e hfails => ?_
  · have hfirst' : store.endpointPlan sdk t₀ source rel.source = .ok first := hfirst
    have ht₁ : Placed env ((engine sdk).applyAll first t₀) := placed_endpoint ht hat hsource hfirst
    rw [wp_andThen_ok, wp_bind]
    refine wp_ensurePlaceholder hsha ha₁ ht₁ htarget (fun h₂ s₂ second hsecond ha₂ => ?_)
      (fun _ _ _ hend => hend) fun e hfails => ?_
    · have ht₂ := placed_endpoint ht₁ hat htarget hsecond
      rw [← Engine.applyAll_append] at ht₂
      refine wp_writeRelation hsha ha₂ ht₂ hrelation ?_
      rw [hwhole, transactionPlan_eq hfirst']
      exact congrArg (fun planned => Except.bind planned _) hsecond
    · rw [hwhole, transactionPlan_eq hfirst']
      exact congrArg (fun planned => Except.bind planned _) hfails
  · rw [hwhole]
    exact transactionPlan_error hfails

open GraphStore Setting in
/-- The relation and the placeholders of its endpoints appear together, at the commit. -/
lemma point_putRelation (hsha : CollisionFree env) (rel : Relation F X) :
    Point env sdk store lostCall lostAnswer i (.putRelation rel) g := by
  intro s hready
  refine settles_gate standing_client hsha hready onWay_start fun h s hready hway => ?_
  refine settles_known standing_client.refl (known_vertexRecordId _) hway fun source hsource hway => ?_
  refine settles_known standing_client.refl (known_vertexRecordId _) hway fun target htarget hway => ?_
  refine settles_known standing_client.refl (known_relationRecordId _) hway
    fun relation hrelation hway => ?_
  rw [hready.readable.address] at hsource htarget hrelation
  unfold Settles
  rw [wp_bind]
  refine wp_begin hready.consistent ?_ ?_
  · intro s₁ s₂ hrely hc₁ hc₂ hsame htx
    have hready₁ := hready.rely standing_client hrely
    have hamid : Amid env g i store s₁.tables s₁.log.length (h ++ [⟨.begin, s₁, .ok (), s₂⟩]) s₂
        [] := by
      refine ⟨hway.quiet.concat hsame, ⟨h, _, [], rfl, rfl, hready₁⟩,
        hready₁.later hc₂ (.of_same sdk hsame), htx, (Stands.of_same sdk hsame).tx _ ?_⟩
      exact ⟨hready₁.sound, (standing env).past_refl _, Nat.le_refl _,
        fun key => Engine.fresh_begin _ _ _⟩
    rw [wp_done, wp_andThen_ok, wp_tryCatch]
    refine wp_mono (wp_relationTransaction hsha hamid hready₁.sound.toPlaced hsource htarget
      hrelation) ?_
    rintro h' ⟨r, store'⟩ s' ⟨hc', hne, hstore, hsettled⟩
    obtain rfl : store' = store := hstore
    cases r with
    | ok u => exact ⟨rfl, hsettled⟩
    | error e =>
      rw [wp_orElse_error, wp_bind]
      refine wp_cancel hc' ?_
      intro s₃ r s₄ _ _ _ hsame'
      exact ⟨rfl, hsettled.snoc hne hsame'⟩
  · intro s₁ s₂ e hrely hc₁ hc₂ hsame _ hl
    exact ⟨rfl, settled_lost hway.quiet hsame hl⟩

/-- Every call but `clear` and `neighborhood` settles. -/
theorem point_code (hsha : CollisionFree env) (hsingle : c.Single) :
    Point env sdk store lostCall lostAnswer i c g := by
  cases c with
  | putObject obj => exact point_putObject hsha obj
  | removeObject id => exact point_removeObject hsha id
  | putRelation rel => exact point_putRelation hsha rel
  | removeRelation id => exact point_removeRelation hsha id
  | putPatch patch => exact point_putPatch hsha patch
  | removePatch id => exact point_removePatch hsha id
  | clear => exact hsingle.elim
  | _ => exact point_reads hsha trivial hsingle

end ActiveGraphSurreal
