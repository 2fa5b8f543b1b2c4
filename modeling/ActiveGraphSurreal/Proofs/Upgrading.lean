import ActiveGraphSurreal.Proofs.Insertion
import ActiveGraphSurreal.Proofs.Installing

/-!
# Projections of older providers

The rows that schema versions 1 and 2 wrote have no counters. The upgrade defines the field and
leaves the rows as they are, so that the order of a projection depends on which rows have been
written since.
-/

namespace ActiveGraphSurreal

open Library

set_option linter.unusedSectionVars false

variable {F X : Type} [Json.ScalarText F] {env : Env F X} {sdk : Sdk} {i : Nat}
  {g : String × String} {store : GraphStore} {t : Tables} {db : Database}

/-! ### Calls on an object -/

variable (env g) in
/-- The database takes the put or the removal: the data can be encoded, the id has a key, and the
counter and the version are numbers that it takes. -/
def Mutation.Lands : Mutation F X → Prop
  | .putObject obj => CounterTaken obj.id ∧ (∃ version, storedInt obj.version = some version) ∧
      (∃ record, objectToRecord env obj = .ok record) ∧ ∃ vertex, vertexKey env g obj.id = .ok vertex
  | .removeObject id => CounterTaken id ∧ ∃ vertex, vertexKey env g id = .ok vertex
  | _ => True

variable (env g) in
def Mutation.Puts (m : Mutation F X) (id : String) : Prop :=
  m.Lands env g ∧ ∃ obj, m = .putObject obj ∧ obj.id = id

variable (env g) in
def Mutation.Keeps (m : Mutation F X) (id : String) : Prop := m.Lands env g → m.target ≠ some id

variable (env g) in
/-- No call that lands puts or removes the object. -/
def Untouched (ms : List (Mutation F X)) (id : String) : Prop := ∀ m ∈ ms, m.Keeps env g id

variable (env g) in
/-- The last call on the object that lands is a put. -/
def PutLast : List (Mutation F X) → String → Prop
  | [], _ => False
  | m :: ms, id => m.Puts env g id ∧ Untouched env g ms id ∨ PutLast ms id

variable (env g) in
lemma untouched_cons (m : Mutation F X) (ms : List (Mutation F X)) (id : String) :
    Untouched env g (m :: ms) id ↔ m.Keeps env g id ∧ Untouched env g ms id :=
  List.forall_mem_cons

variable (env g) in
lemma putLast_cons (m : Mutation F X) (ms : List (Mutation F X)) (id : String) (p : Prop) :
    PutLast env g (m :: ms) id ∨ p ∧ Untouched env g (m :: ms) id ↔
      PutLast env g ms id ∨ (m.Puts env g id ∨ p ∧ m.Keeps env g id) ∧ Untouched env g ms id := by
  have hlast : PutLast env g (m :: ms) id ↔
      m.Puts env g id ∧ Untouched env g ms id ∨ PutLast env g ms id := Iff.rfl
  rw [untouched_cons, hlast]
  tauto

lemma not_lands_of_error (haddress : store.address = g) {m : Mutation F X} {e : PyErr}
    (hplan : m.plan env sdk store t = .error e) (htarget : m.target ≠ none) :
    ¬ m.Lands env g := by
  subst haddress
  have hnone : ∀ ws, m.plan env sdk store t ≠ .ok ws := by
    intro ws hws
    rw [hws] at hplan
    cases hplan
  cases m with
  | putObject obj =>
    rintro ⟨htaken, ⟨version, hversion⟩, ⟨record, hrecord⟩, vertex, hkey⟩
    have hok : ∃ ws, store.putObjectPlan env sdk obj = .ok ws :=
      (GraphStore.putObjectPlan_iff_counterTaken hrecord hversion hkey).mpr htaken
    obtain ⟨ws, hws⟩ := hok
    exact hnone ws hws
  | removeObject id =>
    rintro ⟨htaken, vertex, hkey⟩
    have hstub : ∃ ws, store.stub sdk vertex id = .ok ws :=
      GraphStore.stub_iff_counterTaken.mpr htaken
    obtain ⟨ws, hstub⟩ := hstub
    by_cases hvertex : t.vertex.lookup vertex.key = none
    · exact hnone [] (GraphStore.removeObjectPlan_iff.mpr ⟨vertex, hkey, .inl ⟨hvertex, rfl⟩⟩)
    · exact hnone ws (GraphStore.removeObjectPlan_iff.mpr ⟨vertex, hkey, .inr ⟨hvertex, hstub⟩⟩)
  | putRelation rel => exact absurd rfl htarget
  | removeRelation id => exact absurd rfl htarget
  | putPatch patch => exact absurd rfl htarget
  | removePatch id => exact absurd rfl htarget
  | clear => exact absurd rfl htarget

/-- A put or a removal that the database does not take and that returns has done nothing. -/
lemma nothing_of_not_lands (haddress : store.address = g) {m : Mutation F X} {ws : List Write}
    (hplan : m.plan env sdk store t = .ok ws) (hlands : ¬ m.Lands env g) : ws = [] := by
  subst haddress
  cases m with
  | putObject obj =>
    obtain ⟨n, seq, version, record, vertex, hn, hseq, hversion, hrecord, hkey, -⟩ :=
      GraphStore.putObjectPlan_iff.mp hplan
    have htaken : CounterTaken obj.id := (counterTaken_iff _).mp ⟨n, seq, hn, hseq⟩
    rw [GraphStore.objectToRecord_with] at hrecord
    obtain ⟨original, horiginal, -⟩ := GraphStore.map_eq_ok.mp hrecord
    exact absurd ⟨htaken, ⟨version, hversion⟩, ⟨original, horiginal⟩, vertex, hkey⟩ hlands
  | removeObject id =>
    obtain ⟨vertex, hkey, ⟨-, rfl⟩ | ⟨-, hstub⟩⟩ := GraphStore.removeObjectPlan_iff.mp hplan
    · rfl
    · have htaken : CounterTaken id := GraphStore.stub_iff_counterTaken.mp ⟨ws, hstub⟩
      exact absurd ⟨htaken, vertex, hkey⟩ hlands
  | putRelation rel => exact absurd trivial hlands
  | removeRelation id => exact absurd trivial hlands
  | putPatch patch => exact absurd trivial hlands
  | removePatch id => exact absurd trivial hlands
  | clear => exact absurd trivial hlands

/-! ### What becomes of the rows -/

variable {m : Mutation F X} {ms : List (Mutation F X)} {old new : String → Prop}

lemma Mutation.keeps_iff (h : m.Lands env g) (id : String) :
    m.Keeps env g id ↔ m.target ≠ some id := ⟨fun hkeeps => hkeeps h, fun hne _ => hne⟩

lemma Mutation.puts_iff (h : m.Lands env g) (id : String) :
    m.Puts env g id ↔ m.putId = some id := by
  unfold Puts
  rw [and_iff_right h]
  cases m with
  | putObject obj => simp [putId]
  | removeObject id' => simp [putId]
  | putRelation rel => simp [putId]
  | removeRelation id' => simp [putId]
  | putPatch patch => simp [putId]
  | removePatch id' => simp [putId]
  | clear => simp [putId]

/-- A call without effect on objects. -/
lemma aged_idle (ha : Aged g t old new) (hidle : m.target ≠ none → ¬ m.Lands env g) :
    Aged g t (fun id => old id ∧ m.Keeps env g id)
      fun id => m.Puts env g id ∨ new id ∧ m.Keeps env g id := by
  have hkeeps : ∀ id, m.Keeps env g id := by
    intro id hlands htarget
    apply hidle _ hlands
    rw [htarget]
    exact Option.some_ne_none id
  have hputs : ∀ id, ¬ m.Puts env g id := by
    rintro id ⟨hlands, obj, rfl, -⟩
    exact hidle (Option.some_ne_none _) hlands
  apply ha.congr
  · intro id
    rw [and_iff_left (hkeeps id)]
  · intro id
    rw [or_iff_right (hputs id), and_iff_left (hkeeps id)]

lemma aged_turn (hsha : CollisionFree env) (ht : Placed env t) (h : store.At env g)
    (ha : Aged g t old new) (hm : m.OnGraph) :
    Aged g ((engine sdk).applyAll ((m.plan env sdk store t).toOption.getD []) t)
      (fun id => old id ∧ m.Keeps env g id)
      fun id => m.Puts env g id ∨ new id ∧ m.Keeps env g id := by
  cases hplan : m.plan env sdk store t with
  | error e => exact aged_idle ha (not_lands_of_error h.address hplan)
  | ok ws =>
    by_cases hlands : m.Lands env g
    · apply (aged_plan hsha ht h ha hm hplan).congr
      · intro id
        rw [m.keeps_iff hlands]
      · intro id
        rw [m.keeps_iff hlands, m.puts_iff hlands]
    · obtain rfl := nothing_of_not_lands h.address hplan hlands
      exact aged_idle ha fun _ => hlands

variable (sdk i) in
/-- Old is what no call has touched, new is what has been put last. -/
theorem aged_run (hsha : CollisionFree env) (ht : Sound env db.tables)
    (h : store.Readable env g db.tables) (ha : Aged g db.tables old new)
    (hms : ∀ m ∈ ms, m.OnGraph) :
    Sound env (runMutations env sdk i store ms db).2.tables ∧
      store.Readable env g (runMutations env sdk i store ms db).2.tables ∧
      Aged g (runMutations env sdk i store ms db).2.tables
        (fun id => old id ∧ Untouched env g ms id)
        fun id => PutLast env g ms id ∨ new id ∧ Untouched env g ms id := by
  induction ms generalizing db old new with
  | nil =>
    refine ⟨ht, h, ha.congr ?_ ?_⟩
    · simp [Untouched]
    · simp [Untouched, PutLast]
  | cons m ms ih =>
    have hm : m.OnGraph := hms m (List.mem_cons_self ..)
    have hclear : m ≠ .clear := by
      rintro rfl
      exact hm
    have hrest : ∀ m' ∈ ms, m'.OnGraph := fun m' hm' => hms m' (List.mem_cons_of_mem _ hm')
    obtain ⟨db', hrun, hsound, hreadable, htables⟩ := alone_mutation sdk i hsha ht h hclear
    have hstep : Aged g ((engine sdk).applyAll ((m.plan env sdk store db.tables).toOption.getD [])
        db.tables) _ _ := aged_turn hsha ht.toPlaced h.toAt ha hm
    rw [← htables] at hstep
    obtain ⟨hsound', hreadable', hlast⟩ := ih hsound hreadable hstep hrest
    have hsame : (runMutations env sdk i store (m :: ms) db).2 =
        (runMutations env sdk i store ms db').2 := by
      cases hplan : m.plan env sdk store db.tables with
      | error e =>
        rw [hplan] at hrun
        rw [runMutations_raised hrun]
      | ok ws =>
        rw [hplan] at hrun
        rw [runMutations_returned hrun]
    rw [hsame]
    refine ⟨hsound', hreadable', hlast.congr ?_ ?_⟩
    · intro id
      rw [untouched_cons, and_assoc]
    · exact fun id => putLast_cons env g m ms id (new id)

/-! ### The order after an upgrade -/

/-- The order of schema version 3: by number, and by text where the numbers are the same. -/
def Numerically (number : String → Nat) (a b : String) : Prop :=
  toLex (number a, a) < toLex (number b, b)

open GraphStore in
/-- What the readers of objects return comes in the order of schema version 3. -/
structure ReadsInOrder (env : Env F X) (sdk : Sdk) (i : Nat) (store : GraphStore) (db : Database)
    (number : String → Nat) : Prop where
  allObjects : ∀ objs, (alone sdk i (allObjects env) store db).1.1 = .ok objs →
    (objs.map (·.id)).Pairwise (Numerically number)
  findObjects : ∀ objectType objs, (alone sdk i (findObjects env objectType) store db).1.1 =
    .ok objs → (objs.map (·.id)).Pairwise (Numerically number)
  findObjectsInTypes : ∀ types objs, (alone sdk i (findObjectsInTypes env types) store db).1.1 =
    .ok objs → (objs.map (·.id)).Pairwise (Numerically number)

/-- The rows of the tables that no call has touched come in the order of their ids also in that
of their numbers, and before all that has been put since. -/
def OldFirst (env : Env F X) (g : String × String) (t : Tables) (ms : List (Mutation F X))
    (number : String → Nat) : Prop :=
  ∀ a b, t.HasObject g a → Untouched env g ms a →
    t.HasObject g b ∧ Untouched env g ms b ∧ a < b ∨ PutLast env g ms b → Numerically number a b

lemma readsInOrder_iff (hsha : CollisionFree env) (ht : Sound env db.tables)
    (h : store.Readable env g db.tables) {number : String → Nat} :
    ReadsInOrder env sdk i store db number ↔
      ((db.tables.objects env g).map (·.id)).Pairwise (Numerically number) := by
  constructor
  · intro hreads
    exact hreads.allObjects _ (by rw [GraphStore.alone_allObjects hsha ht h])
  · intro hall
    refine ⟨?_, ?_, ?_⟩
    · intro objs hrun
      rw [GraphStore.alone_allObjects hsha ht h] at hrun
      obtain rfl := Except.ok.inj hrun
      exact hall
    · intro objectType objs hrun
      rw [GraphStore.alone_findObjects hsha ht h] at hrun
      obtain rfl := Except.ok.inj hrun
      exact hall.sublist (List.filter_sublist.map _)
    · intro types objs hrun
      rw [GraphStore.alone_findObjectsInTypes hsha ht h] at hrun
      obtain rfl := Except.ok.inj hrun
      exact hall.sublist (List.filter_sublist.map _)

/-- The rows of a projection are in the order of the numbers when the old ones come first. -/
lemma inOrder_iff (ht : Sound env t) (ha : Aged g t old new) {number : String → Nat}
    (hnumber : ∀ id, new id → Numbered id (number id)) :
    ((t.objects env g).map (·.id)).Pairwise (Numerically number) ↔
      ∀ a b, old a → old b ∧ a < b ∨ new b → Numerically number a b := by
  have hranks := pairwise_selectedObjects (g := g) ht.toPlaced .any
  have hrows : ∀ row, row ∈ t.selectedObjects g .any ↔ row ∈ t.objectRows g.1 g.2 := by
    intro row
    simp [mem_selectedObjects, ObjectFilter.accepts]
  rw [map_id_objects ht g, List.pairwise_map]
  constructor
  · intro hordered a b hold hother
    obtain ⟨row, hrow, rfl, hnone⟩ := (ha.old a).mp hold
    have hlater : ∃ row' ∈ t.objectRows g.1 g.2, row'.objectId = b ∧ row.rank < row'.rank := by
      rcases hother with ⟨holdb, hlt⟩ | hnew
      · obtain ⟨row', hrow', rfl, hnone'⟩ := (ha.old b).mp holdb
        refine ⟨row', hrow', rfl, ?_⟩
        unfold VertexRow.rank
        rw [hnone, hnone']
        exact Prod.Lex.toLex_lt_toLex.mpr (.inr ⟨rfl, hlt⟩)
      · obtain ⟨row', hrow', rfl, hsome⟩ := (ha.new b).mp hnew
        obtain ⟨n, seq, -, -, hseq⟩ := ha.seq row' hrow' hsome
        refine ⟨row', hrow', rfl, ?_⟩
        unfold VertexRow.rank
        rw [hnone, hseq]
        exact Prod.Lex.toLex_lt_toLex.mpr (.inl (WithBot.bot_lt_coe seq))
    obtain ⟨row', hrow', rfl, hlt⟩ := hlater
    exact Records.rel_of_increasing hranks hordered ((hrows row).mpr hrow) ((hrows row').mpr hrow')
      hlt
  · intro hcond
    refine hranks.imp_of_mem ?_
    intro row row' hrow hrow' hlt
    have hmem := (hrows row).mp hrow
    have hmem' := (hrows row').mp hrow'
    by_cases hnone : row.objectSeq = none
    · apply hcond _ _ ((ha.old _).mpr ⟨row, hmem, rfl, hnone⟩)
      by_cases hnone' : row'.objectSeq = none
      · left
        refine ⟨(ha.old _).mpr ⟨row', hmem', rfl, hnone'⟩, ?_⟩
        unfold VertexRow.rank at hlt
        rw [hnone, hnone'] at hlt
        exact ((Prod.Lex.toLex_lt_toLex.mp hlt).resolve_left (lt_irrefl _)).2
      · exact .inr ((ha.new _).mpr ⟨row', hmem', rfl, hnone'⟩)
    · obtain ⟨n, seq, hn, hstored, hseq⟩ := ha.seq row hmem hnone
      by_cases hnone' : row'.objectSeq = none
      · unfold VertexRow.rank at hlt
        rw [hseq, hnone'] at hlt
        rcases Prod.Lex.toLex_lt_toLex.mp hlt with hbot | ⟨hbot, -⟩
        · exact absurd hbot not_lt_bot
        · exact absurd hbot WithBot.coe_ne_bot
      · obtain ⟨n', seq', hn', hstored', hseq'⟩ := ha.seq row' hmem' hnone'
        have hid := stored_numbered (hnumber _ ((ha.new _).mpr ⟨row, hmem, rfl, hnone⟩)) hn hstored
        have hid' :=
          stored_numbered (hnumber _ ((ha.new _).mpr ⟨row', hmem', rfl, hnone'⟩)) hn' hstored'
        unfold VertexRow.rank at hlt
        rw [hseq, hseq', hid, hid'] at hlt
        rcases Prod.Lex.toLex_lt_toLex.mp hlt with hless | ⟨hsame, hless⟩
        · exact Prod.Lex.toLex_lt_toLex.mpr (.inl (Int.ofNat_lt.mp (WithBot.coe_lt_coe.mp hless)))
        · exact Prod.Lex.toLex_lt_toLex.mpr
            (.inr ⟨Int.ofNat_inj.mp (WithBot.coe_inj.mp hsame), hless⟩)

lemma put_of_putLast {id : String} (h : PutLast env g ms id) : ∃ m ∈ ms, m.putId = some id := by
  induction ms with
  | nil => cases h
  | cons m ms ih =>
    rcases h with ⟨⟨-, obj, rfl, rfl⟩, -⟩ | hrest
    · exact ⟨_, List.mem_cons_self .., rfl⟩
    · obtain ⟨m', hm', hput⟩ := ih hrest
      exact ⟨m', List.mem_cons_of_mem _ hm', hput⟩

lemma sound_upgraded (ht : Sound env t) (defined : List Table) (schema : Option SchemaRow) :
    Sound env { t with defined, schema } :=
  ⟨⟨ht.run, ht.event, ht.projection, ht.vertex, ht.relation, ht.joined, ht.patch⟩, ht.object,
    ht.rel⟩

/-- A database of schema version 1 or 2 is upgraded, and any calls on objects and relations
follow. The readers list the present objects, and in the order of schema version 3 exactly when
what has not been written since the upgrade is in this order by its texts and comes first. -/
theorem upgraded_in_order_iff {ℓ : Type} (l : ℓ) (hsha : CollisionFree env)
    (ht : Sound env db.tables) (h : store.Readable env g db.tables)
    {row : SchemaRow} (hrow : db.tables.schema = some row) (hversion : row.version = 1 ∨ row.version = 2)
    (hold : ∀ row ∈ db.tables.objectRows g.1 g.2, row.objectSeq = none)
    (hms : ∀ m ∈ ms, m.OnGraph) (number : String → Nat)
    (hnumber : ∀ id, db.tables.HasObject g id ∨ id ∈ firstPuts ms → Numbered id (number id)) :
    ∃ upgraded objs,
      alone sdk i (ensureSchema schemaVersion false) l db = ((.ok schemaVersion, l), upgraded) ∧
      (alone sdk i (GraphStore.allObjects env) store
        (runMutations env sdk i store ms upgraded).2).1.1 = .ok objs ∧
      (∀ id, id ∈ objs.map (·.id) ↔
        db.tables.HasObject g id ∧ Untouched env g ms id ∨ PutLast env g ms id) ∧
      (ReadsInOrder env sdk i store (runMutations env sdk i store ms upgraded).2 number ↔
        OldFirst env g db.tables ms number) := by
  have hfits : SchemaFits schemaVersion db.tables.schema := by
    intro row' hrow'
    rw [hrow, Option.mem_some_iff] at hrow'
    subst hrow'
    unfold minSchemaVersion schemaVersion
    omega
  obtain ⟨defined, upgraded, hupgrade, htables⟩ :=
    alone_ensureSchema sdk i db l (by decide) hfits
  have hsound : Sound env upgraded.tables := by
    rw [htables]
    exact sound_upgraded ht _ _
  have hreadable : store.Readable env g upgraded.tables := by
    rw [htables]
    exact ⟨h.toAt, h.opened, h.status⟩
  have hrows : upgraded.tables.objectRows g.1 g.2 = db.tables.objectRows g.1 g.2 := by
    rw [htables]
    rfl
  have haged : Aged g upgraded.tables (db.tables.HasObject g) fun _ => False := by
    refine ⟨fun id => ?_, fun id => ?_, fun row hmem hsome => ?_⟩
    · rw [hrows]
      exact exists_congr fun row => and_congr_right fun hmem => (and_iff_left (hold row hmem)).symm
    · rw [hrows]
      refine iff_of_false not_false ?_
      rintro ⟨row, hmem, -, hsome⟩
      exact hsome (hold row hmem)
    · rw [hrows] at hmem
      exact absurd (hold row hmem) hsome
  obtain ⟨hsound', hreadable', hlast⟩ := aged_run sdk i hsha hsound hreadable haged hms
  have hnew : ∀ id, PutLast env g ms id ∨ False ∧ Untouched env g ms id ↔ PutLast env g ms id := by
    intro id
    rw [false_and, or_false]
  have hlast' := hlast.congr (fun _ => Iff.rfl) fun id => (hnew id).symm
  have hids : ∀ id, PutLast env g ms id → Numbered id (number id) :=
    fun id hid => hnumber id (.inr (mem_firstPuts.mpr (put_of_putLast hid)))
  refine ⟨upgraded, (runMutations env sdk i store ms upgraded).2.tables.objects env g, hupgrade, ?_,
    ?_, ?_⟩
  · rw [GraphStore.alone_allObjects hsha hsound' hreadable']
  · intro id
    rw [map_id_objects hsound' g, List.mem_map]
    constructor
    · rintro ⟨row, hrow, rfl⟩
      have hmem := (mem_selectedObjects.mp hrow).1
      by_cases hnone : row.objectSeq = none
      · exact .inl ((hlast'.old _).mpr ⟨row, hmem, rfl, hnone⟩)
      · exact .inr ((hlast'.new _).mpr ⟨row, hmem, rfl, hnone⟩)
    · intro hid
      have hpresent : ∃ row ∈ (runMutations env sdk i store ms upgraded).2.tables.objectRows g.1 g.2,
          row.objectId = id := by
        rcases hid with hold' | hnew'
        · obtain ⟨row, hmem, hid, -⟩ := (hlast'.old id).mp hold'
          exact ⟨row, hmem, hid⟩
        · obtain ⟨row, hmem, hid, -⟩ := (hlast'.new id).mp hnew'
          exact ⟨row, hmem, hid⟩
      obtain ⟨row, hmem, hid⟩ := hpresent
      exact ⟨row, mem_selectedObjects.mpr ⟨hmem, rfl⟩, hid⟩
  · rw [readsInOrder_iff hsha hsound' hreadable', inOrder_iff hsound' hlast' hids]
    unfold OldFirst
    constructor
    · intro hcond a b ha huntouched hb
      apply hcond a b ⟨ha, huntouched⟩
      rcases hb with ⟨hb, huntouched', hlt⟩ | hb
      · exact .inl ⟨⟨hb, huntouched'⟩, hlt⟩
      · exact .inr hb
    · rintro hcond a b ⟨ha, huntouched⟩ hb
      apply hcond a b ha huntouched
      rcases hb with ⟨⟨hb, huntouched'⟩, hlt⟩ | hb
      · exact .inl ⟨hb, huntouched', hlt⟩
      · exact .inr hb

/-! ### Ten before two -/

def olderRow (id : String) : VertexRow :=
  ⟨"s", "r", id, true, none, some "task", some "{}", some 1, some "{}"⟩

/-- A ready projection of two objects that schema version 2 has written. -/
def olderWrites : List Write := [
  .projection (referenceGraph ("s", "r")).projectionRecord.key (some ⟨"s", "r", "ready", none⟩),
  .vertex (referenceVertex "task#2") (some (olderRow "task#2")),
  .vertex (referenceVertex "task#10") (some (olderRow "task#10"))]

def olderDatabase : Database :=
  { freshDatabase with
    tables := { (engine referenceSdk).applyAll olderWrites Tables.empty with
      defined := [.agSchema]
      schema := some ⟨2, "then"⟩ } }

lemma bound_olderRow (id : String) (hkey : vertexKey (reference Unit) ("s", "r") id =
    .ok ⟨referenceVertex id⟩) : (Write.vertex (referenceVertex id) (some (olderRow id))).Bound
      (reference Unit) ("s", "r") := by
  refine ⟨⟨id, hkey, ?_⟩, fun _ => ⟨_, rfl⟩⟩
  intro row hrow
  obtain rfl := Option.some.inj hrow
  exact ⟨rfl, rfl⟩

lemma sound_older : Sound (reference Unit) olderDatabase.tables := by
  have hbound : ∀ w ∈ olderWrites, w.Bound (reference Unit) ("s", "r") := by
    intro w hw
    simp only [olderWrites, List.mem_cons, List.not_mem_nil, or_false] at hw
    rcases hw with rfl | rfl | rfl
    · refine ⟨⟨rfl, ?_⟩, trivial⟩
      intro row hrow
      obtain rfl := Option.some.inj hrow
      rfl
    · exact bound_olderRow "task#2" rfl
    · exact bound_olderRow "task#10" rfl
  exact sound_upgraded
    ((kept_bound reference_collisionFree referenceSdk _).applyAll sound_empty hbound) _ _

lemma readable_older : (referenceGraph ("s", "r")).Readable (reference Unit) ("s", "r")
    olderDatabase.tables :=
  ⟨⟨rfl, rfl⟩, rfl, ⟨⟨"s", "r", "ready", none⟩, rfl, .inl rfl⟩⟩

lemma objectRows_older {row : VertexRow} (hrow : row ∈ olderDatabase.tables.objectRows "s" "r") :
    row = olderRow "task#2" ∨ row = olderRow "task#10" := by
  have hrows : olderDatabase.tables.objectRows "s" "r" =
      [olderRow "task#10", olderRow "task#2"] := rfl
  rw [hrows] at hrow
  simpa [or_comm] using hrow

lemma numbered_two : Numbered "task#2" 2 :=
  numbered_digit "task".toList rfl (by decide) rfl (by decide)

lemma numbered_ten : Numbered "task#10" 10 := by
  refine ⟨⟨['1', '0'], ⟨List.cons_ne_nil _ _, ?_, "task".toList, .inl rfl⟩, by decide⟩, by decide⟩
  intro c hc
  rcases List.mem_pair.mp hc with rfl | rfl
  · decide
  · decide

def olderNumber (id : String) : Nat := if id = "task#2" then 2 else 10

lemma numbered_older {id : String} (h : id = "task#2" ∨ id = "task#10") :
    Numbered id (olderNumber id) := by
  rcases h with rfl | rfl
  · exact numbered_two
  · exact numbered_ten

theorem upgraded_in_order_iff_rewritten : ∃ upgraded objs,
    alone referenceSdk 0 (ensureSchema schemaVersion false) () olderDatabase =
      ((.ok schemaVersion, ()), upgraded) ∧
    (alone referenceSdk 0 (GraphStore.allObjects (reference Unit)) (referenceGraph ("s", "r"))
      (runMutations (reference Unit) referenceSdk 0 (referenceGraph ("s", "r"))
        [.putObject (numberedObject "task#10")] upgraded).2).1.1 = .ok objs ∧
    (∀ id, id ∈ objs.map (·.id) ↔ olderDatabase.tables.HasObject ("s", "r") id ∧
        Untouched (reference Unit) ("s", "r") [.putObject (numberedObject "task#10")] id ∨
      PutLast (reference Unit) ("s", "r") [.putObject (numberedObject "task#10")] id) ∧
    (ReadsInOrder (reference Unit) referenceSdk 0 (referenceGraph ("s", "r"))
        (runMutations (reference Unit) referenceSdk 0 (referenceGraph ("s", "r"))
          [.putObject (numberedObject "task#10")] upgraded).2 olderNumber ↔
      OldFirst (reference Unit) ("s", "r") olderDatabase.tables
        [.putObject (numberedObject "task#10")] olderNumber) := by
  apply upgraded_in_order_iff () reference_collisionFree sound_older readable_older rfl
    (.inr rfl)
  · intro row hrow
    rcases objectRows_older hrow with rfl | rfl
    · rfl
    · rfl
  · intro m hm
    rw [List.mem_singleton.mp hm]
    trivial
  · rintro id (⟨row, hrow, rfl⟩ | hput)
    · apply numbered_older
      rcases objectRows_older hrow with rfl | rfl
      · exact .inl rfl
      · exact .inr rfl
    · obtain ⟨m, hm, hid⟩ := mem_firstPuts.mp hput
      rw [List.mem_singleton.mp hm] at hid
      rw [← Option.some.inj hid]
      exact numbered_older (.inr rfl)

/-- After the upgrade, and without any call, ten is listed before two. -/
theorem upgraded_ten_before_two : ∃ upgraded objs,
    alone referenceSdk 0 (ensureSchema schemaVersion false) () olderDatabase =
      ((.ok schemaVersion, ()), upgraded) ∧
    (alone referenceSdk 0 (GraphStore.allObjects (reference Unit)) (referenceGraph ("s", "r"))
      upgraded).1.1 = .ok objs ∧
    objs.map (·.id) = ["task#10", "task#2"] ∧ Numbered "task#10" 10 ∧ Numbered "task#2" 2 := by
  have hfits : SchemaFits schemaVersion olderDatabase.tables.schema := by
    intro row hrow
    rw [← Option.mem_some_iff.mp hrow]
    decide
  obtain ⟨defined, upgraded, hupgrade, htables⟩ :=
    alone_ensureSchema referenceSdk 0 olderDatabase () (by decide) hfits
  have hsound : Sound (reference Unit) upgraded.tables := by
    rw [htables]
    exact sound_upgraded sound_older _ _
  have hreadable : (referenceGraph ("s", "r")).Readable (reference Unit) ("s", "r")
      upgraded.tables := by
    rw [htables]
    exact ⟨readable_older.toAt, readable_older.opened, readable_older.status⟩
  refine ⟨upgraded, upgraded.tables.objects (reference Unit) ("s", "r"), hupgrade, ?_, ?_,
    numbered_ten, numbered_two⟩
  · rw [GraphStore.alone_allObjects reference_collisionFree hsound hreadable]
  · have hrows : upgraded.tables.selectedObjects ("s", "r") .any =
        [olderRow "task#10", olderRow "task#2"] := by
      rw [htables]
      rfl
    rw [map_id_objects hsound, hrows]
    rfl

end ActiveGraphSurreal
