import ActiveGraphSurreal.Proofs.Counters
import ActiveGraphSurreal.Proofs.Maps

/-!
# The readers of a projection and the reference model

After any sequence of mutations on an empty projection, every reader answers from the three
maps that the returning mutations have built.
-/

namespace ActiveGraphSurreal

open Library

set_option linter.unusedSectionVars false

variable {F X : Type} [Json.ScalarText F]

/-! ### Runs -/

def Maps.afterAll (maps : Maps F X) (ms : List (Mutation F X)) : Maps F X := ms.foldl Maps.after maps

variable {env : Env F X} {sdk : Sdk} {i : Nat} {g : String × String} {store : GraphStore}
  {t : Tables} {db : Database} {maps : Maps F X} {ms : List (Mutation F X)}

lemma runMutations_returned {m : Mutation F X} {db' : Database}
    (hrun : alone sdk i (m.code env) store db = ((.ok (), store), db')) :
    runMutations env sdk i store (m :: ms) db =
      (m :: (runMutations env sdk i store ms db').1, (runMutations env sdk i store ms db').2) := by
  rw [runMutations, hrun]

lemma runMutations_raised {m : Mutation F X} {e : PyErr} {db' : Database}
    (hrun : alone sdk i (m.code env) store db = ((.error e, store), db')) :
    runMutations env sdk i store (m :: ms) db = runMutations env sdk i store ms db' := by
  rw [runMutations, hrun]

lemma Represents.congr (h : Represents env g t maps) {t' : Tables} (htables : t' = t) :
    Represents env g t' maps := htables ▸ h

variable (sdk i) in
/-- What the tables represent after a sequence of calls. -/
theorem represents_run (hsha : CollisionFree env) (ht : Sound env db.tables)
    (h : store.Readable env g db.tables) (hm : Represents env g db.tables maps)
    (stored : Mutation F X → Mutation F X) (hreads : ∀ m ∈ ms, m.ReadsAs env (stored m)) :
    Sound env (runMutations env sdk i store ms db).2.tables ∧
      store.Readable env g (runMutations env sdk i store ms db).2.tables ∧
      Represents env g (runMutations env sdk i store ms db).2.tables
        (maps.afterAll ((runMutations env sdk i store ms db).1.map stored)) := by
  induction ms generalizing db maps with
  | nil => exact ⟨ht, h, hm⟩
  | cons m ms ih =>
    have hrest : ∀ m' ∈ ms, m'.ReadsAs env (stored m') :=
      fun m' hm' => hreads m' (List.mem_cons_of_mem _ hm')
    obtain ⟨r, db', hturn⟩ := turns sdk i hsha ht h hm (hreads m (List.mem_cons_self ..))
    obtain ⟨rfl, hmaps⟩ | ⟨e, rfl, htables⟩ := hturn.maps
    · rw [runMutations_returned hturn.run]
      exact ih hturn.sound hturn.readable hmaps hrest
    · rw [runMutations_raised hturn.run]
      exact ih hturn.sound hturn.readable (hm.congr htables) hrest

/-! ### Single entities -/

namespace GraphStore

lemma presentObject_maps (hsha : CollisionFree env) (ht : Sound env db.tables)
    (hm : Represents env g db.tables maps) {id : String} {vertex : RecordId .agVertex}
    (hkey : vertexKey env g id = .ok vertex) :
    presentObject env (db.tables.vertex.lookup vertex.key) = .ok (maps.objects id) := by
  cases hrow : db.tables.vertex.lookup vertex.key with
  | none =>
    rw [object_none ht.toPlaced hm hkey hrow]
    rfl
  | some row =>
    obtain ⟨haddress, hid⟩ := vertex_fields hsha ht.toPlaced hkey hrow
    by_cases hpresent : row.objectPresent
    · obtain ⟨obj, hobj⟩ := ht.object _ _ hrow hpresent
      have hmem : row ∈ db.tables.objectRows g.1 g.2 :=
        mem_objectRows.mpr ⟨⟨_, hrow⟩, haddress, hpresent⟩
      have hmap : maps.objects id = some obj :=
        (hm.object id obj).mpr ⟨⟨row, hmem, hobj⟩, (objectFromRow_id hobj).trans hid⟩
      rw [hmap]
      simp [presentObject, hpresent, hobj, Except.map]
    · have hmap : maps.objects id = none := by
        rw [Option.eq_none_iff_forall_ne_some]
        intro obj hobj
        obtain ⟨⟨row', hmem, hread⟩, rfl⟩ := (hm.object id obj).mp hobj
        obtain ⟨⟨key, hlookup⟩, haddress', hpresent'⟩ := mem_objectRows.mp hmem
        have hplace := ht.vertex key row' hlookup
        rw [haddress', ← objectFromRow_id hread, hkey] at hplace
        rw [← RecordId.mk.inj (Except.ok.inj hplace), hrow] at hlookup
        rw [Option.some.inj hlookup] at hpresent
        exact hpresent hpresent'
      rw [hmap]
      simp [presentObject, hpresent]

lemma storedRelation_maps (hsha : CollisionFree env) (ht : Sound env db.tables)
    (hm : Represents env g db.tables maps) {id : String} {relation : RecordId .agRelation}
    (hkey : relationKey env g id = .ok relation) :
    storedRelation env (db.tables.relation.lookup relation.key) = .ok (maps.relations id) := by
  cases hrow : db.tables.relation.lookup relation.key with
  | none =>
    have hmap : maps.relations id = none := by
      rw [Option.eq_none_iff_forall_ne_some]
      intro rel hrel
      obtain ⟨⟨row, hmem, hread⟩, rfl⟩ := (hm.relation id rel).mp hrel
      obtain ⟨⟨key, hlookup⟩, haddress⟩ := mem_relationRows.mp hmem
      have hplace := ht.relation key row hlookup
      rw [haddress, ← relationFromRow_id hread, hkey] at hplace
      rw [← RecordId.mk.inj (Except.ok.inj hplace), hrow] at hlookup
      cases hlookup
    rw [hmap]
    rfl
  | some row =>
    obtain ⟨haddress, hid⟩ := relation_fields hsha ht.toPlaced hkey hrow
    obtain ⟨rel, hrel⟩ := ht.rel _ _ hrow
    have hmap : maps.relations id = some rel := (hm.relation id rel).mpr
      ⟨⟨row, mem_relationRows.mpr ⟨⟨_, hrow⟩, haddress⟩, hrel⟩, (relationFromRow_id hrel).trans hid⟩
    rw [hmap]
    simp [storedRelation, hrel, Except.map]

lemma storedPatch_maps (hsha : CollisionFree env) (ht : Sound env db.tables)
    (hm : Represents env g db.tables maps) {id : String} {patch : RecordId .agPatch}
    (hkey : patchKey env g id = .ok patch) :
    storedPatch env (db.tables.patch.lookup patch.key) = .ok (maps.patches id) := by
  cases hrow : db.tables.patch.lookup patch.key with
  | none =>
    have hmap : maps.patches id = none := by
      rw [Option.eq_none_iff_forall_ne_some]
      intro p hp
      obtain ⟨⟨row, hmem, hread⟩, rfl⟩ := (hm.patch id p).mp hp
      obtain ⟨⟨key, hlookup⟩, haddress⟩ := mem_patchRows.mp hmem
      have hplace := ht.patch key row hlookup
      rw [haddress, ← patchFromRecord_id hread, hkey] at hplace
      rw [← RecordId.mk.inj (Except.ok.inj hplace), hrow] at hlookup
      cases hlookup
    rw [hmap]
    rfl
  | some row =>
    obtain ⟨haddress, hid⟩ := patch_fields hsha ht.toPlaced hkey hrow
    have hmem : row ∈ db.tables.patchRows g.1 g.2 := mem_patchRows.mpr ⟨⟨_, hrow⟩, haddress⟩
    obtain ⟨p, hp⟩ := hm.legible row hmem
    have hmap : maps.patches id = some p :=
      (hm.patch id p).mpr ⟨⟨row, hmem, hp⟩, (patchFromRecord_id hp).trans hid⟩
    rw [hmap]
    simp [storedPatch, hp, Except.map]

/-! ### Lists of entities -/

/-- The list has the entities of a kind, each once. -/
def Lists {A : Type} (name : A → String) (as : List A) (P : A → Prop) : Prop :=
  (as.map name).Nodup ∧ ∀ a, a ∈ as ↔ P a

lemma lists_objects (ht : Sound env db.tables) (hm : Represents env g db.tables maps)
    (filter : ObjectFilter) :
    Lists (·.id) ((db.tables.objects env g).filter filter.picks)
      fun obj => maps.objects obj.id = some obj ∧ filter.picks obj := by
  refine ⟨(nodup_objects ht g).sublist (List.filter_sublist.map _), fun obj => ?_⟩
  beta_reduce
  rw [List.mem_filter, mem_objects ht, hm.object]
  simp

lemma relationFromRow_fields {row : RelationRow} {rel : Relation F X}
    (h : relationFromRow env row = .ok rel) :
    rel.source = row.source ∧ rel.target = row.target ∧ rel.type = row.relationType := by
  obtain ⟨_, -, h⟩ := bind_eq_ok.mp h
  obtain ⟨_, -, h⟩ := bind_eq_ok.mp h
  obtain rfl := pure_eq_ok.mp h
  exact ⟨rfl, rfl, rfl⟩

variable (sdk i) in
lemma lists_relations (ht : Sound env db.tables) (h : store.At env g)
    (hm : Represents env g db.tables maps) (source target relationType : Option String) :
    ∃ rels, alone sdk i (selectRelations env (.matching source target relationType) true) store db =
        ((.ok rels, store), db) ∧
      Lists (·.id) rels fun rel => maps.relations rel.id = some rel ∧
        source.all (· = rel.source) ∧ target.all (· = rel.target) ∧
        relationType.all (· = rel.type) := by
  obtain ⟨rels, hrun, hsorted, hmem⟩ :=
    alone_sortedRelations sdk i ht h (.matching source target relationType)
  refine ⟨rels, hrun, ?_, fun rel => ?_⟩
  · rw [List.Nodup, List.pairwise_map]
    exact hsorted.imp ne_of_lt
  · beta_reduce
    rw [hmem, hm.relation]
    constructor
    · rintro ⟨row, hrow, hread, haccepts⟩
      obtain ⟨hsource, htarget, htype⟩ := relationFromRow_fields hread
      rw [hsource, htarget, htype]
      simp only [RelationFilter.accepts, Bool.and_eq_true] at haccepts
      exact ⟨⟨⟨row, hrow, hread⟩, rfl⟩, haccepts.1.1, haccepts.1.2, haccepts.2⟩
    · rintro ⟨⟨⟨row, hrow, hread⟩, -⟩, hmatches⟩
      obtain ⟨hsource, htarget, htype⟩ := relationFromRow_fields hread
      rw [hsource, htarget, htype] at hmatches
      refine ⟨row, hrow, hread, ?_⟩
      simp only [RelationFilter.accepts, Bool.and_eq_true]
      exact ⟨⟨hmatches.1, hmatches.2.1⟩, hmatches.2.2⟩

lemma nodup_patchRows (ht : Placed env t) (g : String × String) :
    ((t.patchRows g.1 g.2).map (·.patchId)).Nodup := by
  have hrows : t.patch.rows.Nodup := Records.nodup_rows
    (p := fun row key => patchKey env (row.scope, row.runId) row.patchId = .ok ⟨key⟩)
    (fun _ _ _ hkey hkey' => RecordId.mk.inj (Except.ok.inj (hkey.symm.trans hkey'))) ht.patch
  refine (hrows.filter _).map_on fun row hrow row' hrow' hid => ?_
  obtain ⟨⟨key, hlookup⟩, haddress⟩ := mem_patchRows.mp hrow
  obtain ⟨⟨key', hlookup'⟩, haddress'⟩ := mem_patchRows.mp hrow'
  have hplace := ht.patch key row hlookup
  have hplace' := ht.patch key' row' hlookup'
  rw [haddress, hid] at hplace
  rw [haddress', hplace] at hplace'
  obtain rfl : key = key' := RecordId.mk.inj (Except.ok.inj hplace')
  exact Option.some.inj (hlookup.symm.trans hlookup')

variable (sdk i) in
lemma lists_patches (hsha : CollisionFree env) (ht : Sound env db.tables)
    (h : store.Readable env g db.tables) (hm : Represents env g db.tables maps) :
    ∃ patches, alone sdk i (allPatches env) store db = ((.ok patches, store), db) ∧
      Lists (·.id) patches fun patch => maps.patches patch.id = some patch := by
  have hmem : ∀ row, row ∈ db.tables.sortedPatches g ↔ row ∈ db.tables.patchRows g.1 g.2 := by
    intro row
    unfold Tables.sortedPatches
    rw [List.mem_insertionSort]
  have hlegible : ∀ row ∈ db.tables.sortedPatches g,
      ∃ patch : Patch F X, patchFromRecord env row.toPatchRecord = .ok patch :=
    fun row hrow => hm.legible row ((hmem row).mp hrow)
  obtain ⟨patches, hpatches, hall⟩ := mapM_ok hlegible
  refine ⟨patches, ?_, ?_, fun patch => ?_⟩
  · rw [alone_allPatches hsha ht.toPlaced h, hpatches]
  · have hids : patches.map (·.id) = (db.tables.sortedPatches g).map (·.patchId) :=
      forall₂_map_eq (fun _ _ => patchFromRecord_id) hall
    have hperm := List.perm_insertionSort (fun a b : PatchRow => patchLE a b = true)
      (db.tables.patchRows g.1 g.2)
    rw [hids]
    exact (hperm.map _).nodup_iff.mpr (nodup_patchRows ht.toPlaced g)
  · beta_reduce
    rw [forall₂_mem_iff hall patch, hm.patch]
    simp only [hmem, and_true]

end GraphStore

/-! ### JSON-normal data -/

/-- Plain JSON whose keys are distinct and in order. -/
def JsonNormal (value : PyValue F X) : Prop :=
  ∃ j : Json F, j.Distinct ∧ j.canon = j ∧ value = plain j

/-- The data is in JSON-normal form and the versions are in the range of their fields. -/
def Mutation.Normal : Mutation F X → Prop
  | .putObject obj => JsonNormal obj.data ∧ JsonNormal obj.provenance ∧ fitsInt obj.version
  | .putRelation rel => JsonNormal rel.data ∧ JsonNormal rel.provenance
  | .putPatch patch => JsonNormal patch.value ∧ JsonNormal (.arr patch.evidence) ∧
      JsonNormal patch.provenance ∧ fitsInt patch.expectedVersion
  | _ => True

/-- Normal data is stored as a text that reads as the data. -/
lemma JsonNormal.text (henc : EncodesJson env) {value : PyValue F X} (h : JsonNormal value) :
    ∃ text j, canonicalJson env value = .ok text ∧ loads env text = .ok j ∧ value = plain j := by
  obtain ⟨j, hdistinct, hcanon, rfl⟩ := h
  obtain ⟨k, hadapt, hk⟩ := henc j hdistinct
  obtain ⟨hwrite, hread, -⟩ := field_text henc hadapt
  rw [hk, hcanon] at hread
  exact ⟨dumps k, j, hwrite, hread, rfl⟩

lemma plain_eq_arr {j : Json F} {items : List (PyValue F X)} (h : (.arr items) = plain j) :
    ∃ js, j = .arr js ∧ items = js.map plain := by
  cases j with
  | arr js =>
    rw [plain_arr] at h
    exact ⟨js, rfl, Json.arr.inj h⟩
  | _ =>
    unfold plain Json.map at h
    cases h

/-- An object of normal data is read back with the version that its field holds. -/
lemma readsAs_putObject (henc : EncodesJson env) {obj : Object F X} {version : Int}
    (hdata : JsonNormal obj.data) (hprovenance : JsonNormal obj.provenance)
    (hversion : storedInt obj.version = some version) :
    (Mutation.putObject obj).ReadsAs env (.putObject { obj with version }) := by
  obtain ⟨_, data, hwrite, hread, hdata⟩ := hdata.text henc
  obtain ⟨_, provenance, hwrite', hread', hprovenance⟩ := hprovenance.text henc
  refine ⟨{ obj with version }, rfl, rfl, fun version' record hversion' hrecord => ?_⟩
  obtain rfl := Option.some.inj (hversion.symm.trans hversion')
  unfold objectToRecord at hrecord
  rw [hwrite, hwrite'] at hrecord
  obtain rfl := Except.ok.inj hrecord
  unfold objectFromRecord
  simp only [hread, hread']
  exact congrArg Except.ok (by rw [← hdata, ← hprovenance])

/-- A patch of normal data is read back with the expected version that its field holds. -/
lemma readsAs_putPatch (henc : EncodesJson env) {patch : Patch F X} {expectedVersion : Int}
    (hvalue : JsonNormal patch.value) (hevidence : JsonNormal (.arr patch.evidence))
    (hprovenance : JsonNormal patch.provenance)
    (hversion : storedInt patch.expectedVersion = some expectedVersion) :
    (Mutation.putPatch patch).ReadsAs env (.putPatch { patch with expectedVersion }) := by
  obtain ⟨_, value, hwrite, hread, hvalue⟩ := hvalue.text henc
  obtain ⟨_, evidence, hwrite', hread', hevidence⟩ := hevidence.text henc
  obtain ⟨_, provenance, hwrite'', hread'', hprovenance⟩ := hprovenance.text henc
  obtain ⟨items, rfl, hitems⟩ := plain_eq_arr hevidence
  refine ⟨{ patch with expectedVersion }, rfl, rfl, fun version' record hversion' hrecord => ?_⟩
  obtain rfl := Option.some.inj (hversion.symm.trans hversion')
  unfold patchToRecord at hrecord
  rw [hwrite, hwrite', hwrite''] at hrecord
  obtain rfl := Except.ok.inj hrecord
  unfold patchFromRecord
  simp only [hread, hread', hread'']
  exact congrArg Except.ok (by rw [← hvalue, ← hitems, ← hprovenance])

/-- Normal entities are read back as they were put. -/
lemma Mutation.Normal.readsAs (henc : EncodesJson env) {m : Mutation F X} (h : m.Normal) :
    m.ReadsAs env m := by
  cases m with
  | putObject obj =>
    obtain ⟨hdata, hprovenance, hversion⟩ := h
    exact readsAs_putObject henc hdata hprovenance (storedInt_of_fits hversion)
  | putRelation rel =>
    obtain ⟨_, data, hwrite, hread, hdata⟩ := h.1.text henc
    obtain ⟨_, provenance, hwrite', hread', hprovenance⟩ := h.2.text henc
    refine ⟨rel, rfl, rfl, fun record hrecord => ?_⟩
    unfold relationToRecord at hrecord
    rw [hwrite, hwrite'] at hrecord
    obtain rfl := Except.ok.inj hrecord
    unfold recordToRelation
    simp only [hread, hread']
    exact congrArg Except.ok (by rw [← hdata, ← hprovenance])
  | putPatch patch =>
    obtain ⟨hvalue, hevidence, hprovenance, hversion⟩ := h
    exact readsAs_putPatch henc hvalue hevidence hprovenance (storedInt_of_fits hversion)
  | removeObject id => rfl
  | removeRelation id => rfl
  | removePatch id => rfl
  | clear => rfl

/-! ### Calls that return -/

/-- The ids have keys, and the counters of object ids fit. -/
def Mutation.Fits (env : Env F X) (g : String × String) : Mutation F X → Prop
  | .putObject obj => CounterFits obj.id ∧ ∃ vertex, vertexKey env g obj.id = .ok vertex
  | .removeObject id => CounterFits id ∧ ∃ vertex, vertexKey env g id = .ok vertex
  | .putRelation rel => (CounterFits rel.source ∧ CounterFits rel.target) ∧
      (∃ vertex, vertexKey env g rel.source = .ok vertex) ∧
      (∃ vertex, vertexKey env g rel.target = .ok vertex) ∧
      ∃ relation, relationKey env g rel.id = .ok relation
  | .removeRelation id => ∃ relation, relationKey env g id = .ok relation
  | .putPatch patch => ∃ record, patchKey env g patch.id = .ok record
  | .removePatch id => ∃ record, patchKey env g id = .ok record
  | .clear => True

lemma Mutation.Fits.plan (henc : EncodesJson env) (h : store.At env g)
    {m : Mutation F X} (hfits : m.Fits env g) (hnormal : m.Normal) (t : Tables) :
    ∃ ws, m.plan env sdk store t = .ok ws := by
  have haddress := h.address
  subst haddress
  cases m with
  | putObject obj =>
    obtain ⟨hcounter, vertex, hkey⟩ := hfits
    obtain ⟨_, _, hwrite, -⟩ := hnormal.1.text henc
    obtain ⟨_, _, hwrite', -⟩ := hnormal.2.1.text henc
    have hrecord : ∃ record, objectToRecord env obj = .ok record := by
      unfold objectToRecord
      rw [hwrite, hwrite']
      exact ⟨_, rfl⟩
    obtain ⟨record, hrecord⟩ := hrecord
    exact (GraphStore.putObjectPlan_iff_counterTaken hrecord (storedInt_of_fits hnormal.2.2)
      hkey).mpr hcounter.taken
  | removeObject id =>
    obtain ⟨hcounter, vertex, hkey⟩ := hfits
    by_cases hrow : t.vertex.lookup vertex.key = none
    · exact ⟨[], GraphStore.removeObjectPlan_iff.mpr ⟨vertex, hkey, .inl ⟨hrow, rfl⟩⟩⟩
    · obtain ⟨ws, hstub⟩ := GraphStore.stub_iff_counterTaken.mpr hcounter.taken
      exact ⟨ws, GraphStore.removeObjectPlan_iff.mpr ⟨vertex, hkey, .inr ⟨hrow, hstub⟩⟩⟩
  | putRelation rel =>
    obtain ⟨⟨hcounter, hcounter'⟩, ⟨source, hsource⟩, ⟨target, htarget⟩, relation, hrelation⟩ := hfits
    obtain ⟨_, _, hwrite, -⟩ := hnormal.1.text henc
    obtain ⟨_, _, hwrite', -⟩ := hnormal.2.text henc
    have hrecord : ∃ record, relationToRecord env rel = .ok record := by
      unfold relationToRecord
      rw [hwrite, hwrite']
      exact ⟨_, rfl⟩
    obtain ⟨record, hrecord⟩ := hrecord
    obtain ⟨ws, hfirst⟩ := GraphStore.endpointPlan_iff_counterTaken.mpr fun _ => hcounter.taken
    obtain ⟨ws', hsecond⟩ := GraphStore.endpointPlan_iff_counterTaken.mpr fun _ => hcounter'.taken
    exact ⟨_, GraphStore.putRelationPlan_iff.mpr ⟨source, target, relation, hsource, htarget,
      hrelation, GraphStore.transactionPlan_iff.mpr ⟨ws, ws', record, hfirst, hsecond, hrecord,
        rfl⟩⟩⟩
  | removeRelation id =>
    obtain ⟨relation, hkey⟩ := hfits
    exact ⟨_, bind_eq_ok.mpr ⟨relation, hkey, rfl⟩⟩
  | putPatch patch =>
    obtain ⟨record, hkey⟩ := hfits
    obtain ⟨_, _, hwrite, -⟩ := hnormal.1.text henc
    obtain ⟨_, _, hwrite', -⟩ := hnormal.2.1.text henc
    obtain ⟨_, _, hwrite'', -⟩ := hnormal.2.2.1.text henc
    have hcontent : ∃ content, patchToRecord env patch = .ok content := by
      unfold patchToRecord
      rw [hwrite, hwrite', hwrite'']
      exact ⟨_, rfl⟩
    obtain ⟨content, hcontent⟩ := hcontent
    exact ⟨_, GraphStore.putPatchPlan_iff.mpr ⟨patch.expectedVersion, record, content,
      storedInt_of_fits hnormal.2.2.2, hkey, hcontent, rfl⟩⟩
  | removePatch id =>
    obtain ⟨record, hkey⟩ := hfits
    exact ⟨_, bind_eq_ok.mpr ⟨record, hkey, rfl⟩⟩
  | clear => exact ⟨[], rfl⟩

lemma runMutations_all (henc : EncodesJson env) (hsha : CollisionFree env)
    (ht : Sound env db.tables) (h : store.Readable env g db.tables)
    (hm : Represents env g db.tables maps) (hnormal : ∀ m ∈ ms, m.Normal)
    (hfits : ∀ m ∈ ms, m.Fits env g) : (runMutations env sdk i store ms db).1 = ms := by
  induction ms generalizing db maps with
  | nil => rfl
  | cons m ms ih =>
    have hm₀ : m.Normal := hnormal m (List.mem_cons_self ..)
    obtain ⟨r, db', hturn⟩ := turns sdk i hsha ht h hm (hm₀.readsAs henc)
    obtain ⟨rfl, hmaps⟩ | ⟨e, rfl, -⟩ := hturn.maps
    · have hrest := ih hturn.sound hturn.readable hmaps
        (fun m' hm' => hnormal m' (List.mem_cons_of_mem _ hm'))
        fun m' hm' => hfits m' (List.mem_cons_of_mem _ hm')
      rw [runMutations_returned hturn.run, hrest]
    · by_cases hclear : m = .clear
      · subst hclear
        have hrun : alone sdk i (Mutation.clear.code env) store db =
            ((.ok (), store), GraphStore.cleared sdk i g db) :=
          GraphStore.alone_clear h.toAt h.opened
        rw [hturn.run] at hrun
        cases hrun
      · obtain ⟨ws, hplan⟩ := (hfits m (List.mem_cons_self ..)).plan henc h.toAt hm₀ db.tables
        have hanswer := (does_mutation sdk i hsha ht.toPlaced h hclear).answer
        rw [hturn.run, hplan] at hanswer
        cases hanswer

/-! ### Every reader -/

/-- The objects that a plan asks for, where the framework checks the clauses of its `where`. -/
def wanted (fulfils : List (String × PyValue F X) → Object F X → Bool) (plan : ObjectQuery F X)
    (objs : List (Object F X)) : List (Object F X) :=
  objs.filter fun obj => plan.type.all (· = obj.type) && fulfils (plan.where_.getD []) obj

open GraphStore in
/-- Every reader answers from the maps. -/
structure Mirrors (env : Env F X) (sdk : Sdk) (i : Nat) (g : String × String) (store : GraphStore)
    (db : Database) (maps : Maps F X) : Prop where
  getObject : ∀ id, (alone sdk i (getObject env id) store db).1.1 =
    (vertexKey env g id).map fun _ => maps.objects id
  getRelation : ∀ id, (alone sdk i (getRelation env id) store db).1.1 =
    (relationKey env g id).map fun _ => maps.relations id
  getPatch : ∀ id, (alone sdk i (getPatch env id) store db).1.1 =
    (patchKey env g id).map fun _ => maps.patches id
  allObjects : ∃ objs, (alone sdk i (allObjects env) store db).1.1 = .ok objs ∧
    Lists (·.id) objs fun obj => maps.objects obj.id = some obj
  allRelations : ∃ rels, (alone sdk i (allRelations env) store db).1.1 = .ok rels ∧
    Lists (·.id) rels fun rel => maps.relations rel.id = some rel
  allPatches : ∃ patches, (alone sdk i (allPatches env) store db).1.1 = .ok patches ∧
    Lists (·.id) patches fun patch => maps.patches patch.id = some patch
  findObjects : ∀ objectType : Option String,
    ∃ objs, (alone sdk i (findObjects env objectType) store db).1.1 = .ok objs ∧
      Lists (·.id) objs fun obj => maps.objects obj.id = some obj ∧ objectType.all (· = obj.type)
  findObjectsInTypes : ∀ types,
    ∃ objs, (alone sdk i (findObjectsInTypes env types) store db).1.1 = .ok objs ∧
      Lists (·.id) objs fun obj => maps.objects obj.id = some obj ∧ obj.type ∈ types
  findRelations : ∀ source target relationType : Option String,
    ∃ rels, (alone sdk i (findRelations env source target relationType) store db).1.1 = .ok rels ∧
      Lists (·.id) rels fun rel => maps.relations rel.id = some rel ∧
        source.all (· = rel.source) ∧ target.all (· = rel.target) ∧ relationType.all (· = rel.type)
  queryObjects : ∀ fulfils plan, (∀ obj, fulfils [] obj) →
    (∀ n ∈ plan.limit, 1 ≤ n ∧ n ≤ sdk.maxLimit) →
    ∃ objs result, (alone sdk i (GraphStore.allObjects env) store db).1.1 = .ok objs ∧
      (alone sdk i (queryObjects env plan) store db).1.1 = .ok result ∧
      (result.exists_ = none →
        limited plan.limit (result.candidates.filter (fulfils result.residualWhere)) =
          limited plan.limit (wanted fulfils plan objs)) ∧
      ∀ flag ∈ result.exists_, flag = !(wanted fulfils plan objs).isEmpty

/-- Both endpoints of every relation of the run have their vertices. -/
def Anchored (t : Tables) (g : String × String) : Prop :=
  ∀ row ∈ t.relationRows g.1 g.2,
    (∃ vertex, t.vertex.lookup row.inKey = some vertex ∧ (vertex.scope, vertex.runId) = g ∧
      vertex.objectId = row.source) ∧
    ∃ vertex, t.vertex.lookup row.outKey = some vertex ∧ (vertex.scope, vertex.runId) = g ∧
      vertex.objectId = row.target

lemma picks_objectFilter (objectType : Option String) (obj : Object F X) :
    (GraphStore.objectFilter objectType).picks obj = objectType.all (· = obj.type) := by
  cases objectType with
  | none => rfl
  | some objectType =>
    exact decide_eq_decide.mpr eq_comm

lemma limited_limited {R : Type} (limit : Option Int) (rows : List R) :
    limited limit (limited limit rows) = limited limit rows := by
  cases limit with
  | none => rfl
  | some n => simp [limited, List.take_take]

lemma queryAnswer_wanted {fulfils : List (String × PyValue F X) → Object F X → Bool}
    (hnone : ∀ obj, fulfils [] obj) (plan : ObjectQuery F X) (objs : List (Object F X)) :
    ((GraphStore.queryAnswer objs plan).exists_ = none →
      limited plan.limit ((GraphStore.queryAnswer objs plan).candidates.filter
          (fulfils (GraphStore.queryAnswer objs plan).residualWhere)) =
        limited plan.limit (wanted fulfils plan objs)) ∧
    ∀ flag ∈ (GraphStore.queryAnswer objs plan).exists_,
      flag = !(wanted fulfils plan objs).isEmpty := by
  have hwanted : wanted fulfils plan objs =
      (objs.filter (GraphStore.objectFilter plan.type).picks).filter
        (fulfils (plan.where_.getD [])) := by
    unfold wanted
    rw [List.filter_filter]
    apply List.filter_congr
    intro obj _
    rw [picks_objectFilter, Bool.and_comm]
  have hempty : (plan.where_.getD []).isEmpty → wanted fulfils plan objs =
      objs.filter (GraphStore.objectFilter plan.type).picks := by
    intro h
    rw [hwanted, List.isEmpty_iff.mp h]
    exact List.filter_eq_self.mpr fun obj _ => hnone obj
  unfold GraphStore.queryAnswer
  split
  · next hexists =>
    refine ⟨nofun, fun flag hflag => ?_⟩
    rw [hempty hexists.2, ← Option.some.inj hflag]
  · refine ⟨fun _ => ?_, nofun⟩
    by_cases h : (plan.where_.getD []).isEmpty
    · simp only [h, if_true]
      rw [hempty h, List.isEmpty_iff.mp h, List.filter_eq_self.mpr fun obj _ => hnone obj,
        limited_limited]
    · simp only [h, if_false, Bool.false_eq_true]
      rw [hwanted]
      rfl

lemma map_key {A : Type} {table : Table} {key : Except PyErr (RecordId table)}
    {read : RecordId table → Except PyErr A} {a : A}
    (h : ∀ record, key = .ok record → read record = .ok a) : key.bind read = key.map fun _ => a := by
  cases key with
  | error e => rfl
  | ok record => exact h record rfl

variable (sdk i) in
theorem mirrors_of_represents (hsha : CollisionFree env) (ht : Sound env db.tables)
    (h : store.Readable env g db.tables) (hm : Represents env g db.tables maps) :
    Mirrors env sdk i g store db maps where
  getObject id := by
    rw [GraphStore.alone_getObject hsha ht.toPlaced h]
    exact map_key fun _ hkey => GraphStore.presentObject_maps hsha ht hm hkey
  getRelation id := by
    rw [GraphStore.alone_getRelation hsha ht.toPlaced h]
    exact map_key fun _ hkey => GraphStore.storedRelation_maps hsha ht hm hkey
  getPatch id := by
    rw [GraphStore.alone_getPatch hsha ht.toPlaced h]
    exact map_key fun _ hkey => GraphStore.storedPatch_maps hsha ht hm hkey
  allObjects := by
    rw [GraphStore.alone_allObjects hsha ht h]
    refine ⟨_, rfl, nodup_objects ht g, fun obj => ?_⟩
    beta_reduce
    rw [mem_objects ht, hm.object]
    simp
  allRelations := by
    obtain ⟨rels, hrun, hlists⟩ := GraphStore.lists_relations sdk i ht h.toAt hm none none none
    unfold GraphStore.allRelations
    rw [alone_bind, GraphStore.alone_assertReadable hsha ht.toPlaced h, aloneThen_ok, hrun]
    refine ⟨rels, rfl, hlists.1, fun rel => ?_⟩
    rw [hlists.2]
    simp
  allPatches := by
    obtain ⟨patches, hrun, hlists⟩ := GraphStore.lists_patches sdk i hsha ht h hm
    rw [hrun]
    exact ⟨patches, rfl, hlists⟩
  findObjects objectType := by
    rw [GraphStore.alone_findObjects hsha ht h]
    obtain ⟨hnodup, hmem⟩ := GraphStore.lists_objects ht hm (GraphStore.objectFilter objectType)
    refine ⟨_, rfl, hnodup, fun obj => ?_⟩
    rw [hmem]
    beta_reduce
    rw [picks_objectFilter]
  findObjectsInTypes types := by
    rw [GraphStore.alone_findObjectsInTypes hsha ht h]
    refine ⟨_, rfl, (nodup_objects ht g).sublist (List.filter_sublist.map _), fun obj => ?_⟩
    beta_reduce
    rw [List.mem_filter, mem_objects ht, hm.object]
    simp
  findRelations source target relationType := by
    obtain ⟨rels, hrun, hlists⟩ :=
      GraphStore.lists_relations sdk i ht h.toAt hm source target relationType
    unfold GraphStore.findRelations
    rw [alone_bind, GraphStore.alone_assertReadable hsha ht.toPlaced h, aloneThen_ok, hrun]
    exact ⟨rels, rfl, hlists⟩
  queryObjects fulfils plan hnone hlimit := by
    have hlimit' : sdk.Takes plan.limit := fun n hn =>
      ⟨le_trans (by decide) (hlimit n hn).1, (hlimit n hn).2⟩
    rw [GraphStore.alone_allObjects hsha ht h, GraphStore.alone_queryObjects hsha ht h hlimit']
    exact ⟨_, _, rfl, rfl, queryAnswer_wanted hnone plan _⟩

lemma anchored_of_represents (hsha : CollisionFree env) (ht : Placed env t)
    (hm : Represents env g t maps) : Anchored t g := by
  intro row hrow
  obtain ⟨⟨key, hlookup⟩, haddress⟩ := GraphStore.mem_relationRows.mp hrow
  obtain ⟨hsource, htarget⟩ := ht.joined key row hlookup
  rw [haddress] at hsource htarget
  obtain ⟨source, hin⟩ := hm.source row hrow
  obtain ⟨target, hout⟩ := hm.target row hrow
  exact ⟨⟨source, hin, GraphStore.vertex_fields hsha ht hsource hin⟩,
    ⟨target, hout, GraphStore.vertex_fields hsha ht htarget hout⟩⟩

/-- After any sequence of mutations on an empty projection, with data in JSON-normal form and
versions in range, every reader answers from the three maps, relations hang on the vertices of
their endpoints, and no mutation fails whose ids have keys and counters that fit. -/
theorem projection_is_three_maps (hsha : CollisionFree env) (henc : EncodesJson env)
    (ht : Sound env db.tables) (h : store.Readable env g db.tables)
    (hobjects : db.tables.objectRows g.1 g.2 = []) (hrelations : db.tables.relationRows g.1 g.2 = [])
    (hpatches : db.tables.patchRows g.1 g.2 = []) (ms : List (Mutation F X))
    (hnormal : ∀ m ∈ ms, m.Normal) :
    Mirrors env sdk i g store (runMutations env sdk i store ms db).2
        (Maps.empty.afterAll (runMutations env sdk i store ms db).1) ∧
      Anchored (runMutations env sdk i store ms db).2.tables g ∧
      ((∀ m ∈ ms, m.Fits env g) → (runMutations env sdk i store ms db).1 = ms) := by
  have hempty : Represents env g db.tables Maps.empty :=
    represents_empty hobjects hrelations hpatches
  have hreads : ∀ m ∈ ms, m.ReadsAs env m := fun m hm => (hnormal m hm).readsAs henc
  obtain ⟨hsound, hreadable, hmaps⟩ :=
    represents_run sdk i hsha ht h hempty (fun m => m) hreads
  rw [List.map_id'] at hmaps
  exact ⟨mirrors_of_represents sdk i hsha hsound hreadable hmaps,
    anchored_of_represents hsha hsound.toPlaced hmaps,
    fun hfits => runMutations_all henc hsha ht h hempty hnormal hfits⟩

/-! ### An empty projection -/

def readyWrites : List Write := [.projection (referenceGraph ("s", "r")).projectionRecord.key
  (some ⟨"s", "r", "ready", none⟩)]

def readyDatabase : Database :=
  { freshDatabase with tables := (engine referenceSdk).applyAll readyWrites Tables.empty }

lemma sound_ready : Sound (reference Unit) readyDatabase.tables := by
  have hbound : ∀ w ∈ readyWrites, w.Bound (reference Unit) ("s", "r") := by
    intro w hw
    obtain rfl := List.mem_singleton.mp hw
    refine ⟨⟨rfl, ?_⟩, trivial⟩
    intro row hrow
    obtain rfl := Option.some.inj hrow
    rfl
  exact (kept_bound reference_collisionFree referenceSdk _).applyAll sound_empty hbound

lemma readable_ready : (referenceGraph ("s", "r")).Readable (reference Unit) ("s", "r")
    readyDatabase.tables :=
  ⟨⟨rfl, rfl⟩, rfl, ⟨⟨"s", "r", "ready", none⟩, rfl, .inl rfl⟩⟩

lemma represents_ready :
    Represents (reference Unit) ("s", "r") readyDatabase.tables Maps.empty :=
  represents_empty rfl rfl rfl

lemma normal_emptyObj : JsonNormal (F := Unit) (X := Empty) (.obj []) :=
  ⟨.obj [], by decide, rfl, rfl⟩

lemma normal_emptyArr : JsonNormal (F := Unit) (X := Empty) (.arr []) :=
  ⟨.arr [], by decide, rfl, rfl⟩

lemma normal_numberedObject (id : String) : (Mutation.putObject (numberedObject id)).Normal :=
  ⟨normal_emptyObj, normal_emptyObj, (show fitsInt 1 = true by decide)⟩

/-- A relation to an object that was never put. -/
def numberedRelation : Relation Unit Empty :=
  ⟨"r", "task#1", "task#2", "needs", .obj [], .obj []⟩

def numberedPatch (expectedVersion : Int) : Patch Unit Empty :=
  ⟨"p", "task#1", "update", .obj [], expectedVersion, "a", none, [], "proposed", none, .obj []⟩

def numberedMutations : List (Mutation Unit Empty) :=
  [.putObject (numberedObject "task#1"), .putRelation numberedRelation,
    .putPatch (numberedPatch 1), .removeObject "task#1"]

lemma normal_numberedMutations : ∀ m ∈ numberedMutations, m.Normal := by
  intro m hm
  simp only [numberedMutations, List.mem_cons, List.not_mem_nil, or_false] at hm
  rcases hm with rfl | rfl | rfl | rfl
  · exact normal_numberedObject "task#1"
  · exact ⟨normal_emptyObj, normal_emptyObj⟩
  · exact ⟨normal_emptyObj, normal_emptyArr, normal_emptyObj, (show fitsInt 1 = true by decide)⟩
  · trivial

lemma fits_numberedMutations : ∀ m ∈ numberedMutations, m.Fits (reference Unit) ("s", "r") := by
  have hfirst : CounterFits "task#1" := (counter_iff _).mp ⟨1, by decide, by decide⟩
  have hsecond : CounterFits "task#2" := (counter_iff _).mp ⟨2, by decide, by decide⟩
  intro m hm
  simp only [numberedMutations, List.mem_cons, List.not_mem_nil, or_false] at hm
  rcases hm with rfl | rfl | rfl | rfl
  · exact ⟨hfirst, _, rfl⟩
  · exact ⟨⟨hfirst, hsecond⟩, ⟨_, rfl⟩, ⟨_, rfl⟩, _, rfl⟩
  · exact ⟨_, rfl⟩
  · exact ⟨hfirst, _, rfl⟩

theorem projection_is_three_maps_numbered :
    Mirrors (reference Unit) referenceSdk 0 ("s", "r") (referenceGraph ("s", "r"))
        (runMutations (reference Unit) referenceSdk 0 (referenceGraph ("s", "r")) numberedMutations
          readyDatabase).2
        (Maps.empty.afterAll (runMutations (reference Unit) referenceSdk 0 (referenceGraph ("s", "r"))
          numberedMutations readyDatabase).1) ∧
      Anchored (runMutations (reference Unit) referenceSdk 0 (referenceGraph ("s", "r"))
        numberedMutations readyDatabase).2.tables ("s", "r") ∧
      (runMutations (reference Unit) referenceSdk 0 (referenceGraph ("s", "r")) numberedMutations
        readyDatabase).1 = numberedMutations := by
  obtain ⟨hmirrors, hanchored, hreturns⟩ := projection_is_three_maps (i := 0)
    reference_collisionFree reference_encodesJson sound_ready readable_ready rfl rfl rfl
    numberedMutations normal_numberedMutations
  exact ⟨hmirrors, hanchored, hreturns fits_numberedMutations⟩

/-- A plan that only asks whether there is an object. -/
def existsPlan : ObjectQuery Unit Empty := ⟨none, none, none, "exists"⟩

def numberedDatabase : Database := (runMutations (reference Unit) referenceSdk 0
  (referenceGraph ("s", "r")) [.putObject (numberedObject "task#1")] readyDatabase).2

lemma represents_numbered : Sound (reference Unit) numberedDatabase.tables ∧
    (referenceGraph ("s", "r")).Readable (reference Unit) ("s", "r") numberedDatabase.tables ∧
    Represents (reference Unit) ("s", "r") numberedDatabase.tables
      (Maps.empty.after (.putObject (numberedObject "task#1"))) := by
  have hnormal : ∀ m ∈ [Mutation.putObject (numberedObject "task#1")], m.Normal := by
    intro m hm
    rw [List.mem_singleton.mp hm]
    exact normal_numberedObject "task#1"
  have hfits : ∀ m ∈ [Mutation.putObject (numberedObject "task#1")],
      m.Fits (reference Unit) ("s", "r") := by
    intro m hm
    rw [List.mem_singleton.mp hm]
    exact fits_numberedMutations _ (List.mem_cons_self ..)
  have hrun := represents_run referenceSdk 0 reference_collisionFree sound_ready readable_ready
    represents_ready (fun m => m) fun m hm => (hnormal m hm).readsAs reference_encodesJson
  rw [List.map_id', runMutations_all reference_encodesJson reference_collisionFree sound_ready
    readable_ready represents_ready hnormal hfits] at hrun
  exact hrun

/-- The answer to it has no candidates although there is an object. -/
lemma existsPlan_without_candidates : ∃ objs result,
    (alone referenceSdk 0 (GraphStore.allObjects (reference Unit)) (referenceGraph ("s", "r"))
      numberedDatabase).1.1 = .ok objs ∧
    (alone referenceSdk 0 (GraphStore.queryObjects (reference Unit) existsPlan)
      (referenceGraph ("s", "r")) numberedDatabase).1.1 = .ok result ∧
    limited existsPlan.limit result.candidates ≠
      limited existsPlan.limit (wanted (fun _ _ => true) existsPlan objs) := by
  obtain ⟨hsound, hreadable, hmaps⟩ := represents_numbered
  rw [GraphStore.alone_allObjects reference_collisionFree hsound hreadable,
    GraphStore.alone_queryObjects reference_collisionFree hsound hreadable (takes_none _)]
  refine ⟨_, _, rfl, rfl, ?_⟩
  have hmap : (Maps.empty.after (.putObject (numberedObject "task#1"))).objects "task#1" =
      some (numberedObject "task#1") := by simp [Maps.after, numberedObject]
  have hmem : numberedObject "task#1" ∈ numberedDatabase.tables.objects (reference Unit) ("s", "r") :=
    (mem_objects hsound).mpr ((hmaps.object _ _).mp hmap).1
  have hall : wanted (fun _ _ => true) existsPlan
      (numberedDatabase.tables.objects (reference Unit) ("s", "r")) =
      numberedDatabase.tables.objects (reference Unit) ("s", "r") :=
    List.filter_eq_self.mpr fun _ _ => rfl
  rw [hall]
  intro h
  change [] = numberedDatabase.tables.objects (reference Unit) ("s", "r") at h
  rw [← h] at hmem
  exact List.not_mem_nil hmem

variable (sdk i) in
/-- The readers after a mutation that is carried out. -/
lemma mirrors_turn (hsha : CollisionFree env) (ht : Sound env db.tables)
    (h : store.Readable env g db.tables) (hm : Represents env g db.tables maps) {m m' : Mutation F X}
    (hreads : m.ReadsAs env m') (hok : (alone sdk i (m.code env) store db).1.1 = .ok ()) :
    Mirrors env sdk i g store (alone sdk i (m.code env) store db).2 (maps.after m') := by
  obtain ⟨r, db', hturn⟩ := turns sdk i hsha ht h hm hreads
  rw [hturn.run] at hok ⊢
  obtain ⟨-, hmaps⟩ | ⟨e, rfl, -⟩ := hturn.maps
  · exact mirrors_of_represents sdk i hsha hturn.sound hturn.readable hmaps
  · cases hok

def wideObject (version : Int) : Object Unit Empty := { numberedObject "task#1" with version }

/-- The outcome of a call on the empty projection, and the database after it. -/
def readyRun (m : Mutation Unit Empty) : Except PyErr Unit × Database :=
  let run := alone referenceSdk 0 (m.code (reference Unit)) (referenceGraph ("s", "r")) readyDatabase
  (run.1.1, run.2)

lemma readyRun_ok {m : Mutation Unit Empty} {ws : List Write} (hclear : m ≠ .clear)
    (hplan : m.plan (reference Unit) referenceSdk (referenceGraph ("s", "r")) readyDatabase.tables =
      .ok ws) : (readyRun m).1 = .ok () :=
  (GraphStore.returns_iff (does_mutation referenceSdk 0 reference_collisionFree
    sound_ready.toPlaced readable_ready hclear)).mpr ⟨ws, hplan⟩

/-- The exists mode returns no candidates, versions beyond the range are read back wrapped, and a
limit beyond that of the database is refused. -/
theorem exists_without_candidates :
    (∃ objs result,
      (alone referenceSdk 0 (GraphStore.allObjects (reference Unit)) (referenceGraph ("s", "r"))
        numberedDatabase).1.1 = .ok objs ∧
      (alone referenceSdk 0 (GraphStore.queryObjects (reference Unit) existsPlan)
        (referenceGraph ("s", "r")) numberedDatabase).1.1 = .ok result ∧
      limited existsPlan.limit result.candidates ≠
        limited existsPlan.limit (wanted (fun _ _ => true) existsPlan objs)) ∧
    ((readyRun (.putObject (wideObject (2 ^ 63)))).1 = .ok () ∧
      (alone referenceSdk 0 (GraphStore.getObject (reference Unit) "task#1")
        (referenceGraph ("s", "r")) (readyRun (.putObject (wideObject (2 ^ 63)))).2).1.1 =
        .ok (some (wideObject (-2 ^ 63)))) ∧
    ((readyRun (.putPatch (numberedPatch (2 ^ 63)))).1 = .ok () ∧
      (alone referenceSdk 0 (GraphStore.getPatch (reference Unit) "p")
        (referenceGraph ("s", "r")) (readyRun (.putPatch (numberedPatch (2 ^ 63)))).2).1.1 =
        .ok (some (numberedPatch (-2 ^ 63)))) ∧
    (alone referenceSdk 0 (GraphStore.queryObjects (reference Unit)
      ⟨none, none, some (2 ^ 32), "objects"⟩) (referenceGraph ("s", "r")) numberedDatabase).1.1 =
        .error (referenceSdk.error (.badValue "LIMIT")) := by
  refine ⟨existsPlan_without_candidates, ?_, ?_, ?_⟩
  · have hok : (readyRun (.putObject (wideObject (2 ^ 63)))).1 = .ok () :=
      readyRun_ok nofun (GraphStore.putObjectPlan_iff.mpr
        ⟨1, 1, -2 ^ 63, _, _, by decide, by decide, by decide, rfl, rfl, rfl⟩)
    have hreads : (Mutation.putObject (wideObject (2 ^ 63))).ReadsAs (reference Unit)
        (.putObject (wideObject (-2 ^ 63))) :=
      readsAs_putObject reference_encodesJson normal_emptyObj normal_emptyObj (by decide)
    have hmirrors := mirrors_turn referenceSdk 0 reference_collisionFree sound_ready readable_ready
      represents_ready hreads hok
    exact ⟨hok, (hmirrors.getObject "task#1").trans rfl⟩
  · have hok : (readyRun (.putPatch (numberedPatch (2 ^ 63)))).1 = .ok () :=
      readyRun_ok nofun (GraphStore.putPatchPlan_iff.mpr ⟨-2 ^ 63, _, _, by decide, rfl, rfl, rfl⟩)
    have hreads : (Mutation.putPatch (numberedPatch (2 ^ 63))).ReadsAs (reference Unit)
        (.putPatch (numberedPatch (-2 ^ 63))) :=
      readsAs_putPatch reference_encodesJson normal_emptyObj normal_emptyArr normal_emptyObj
        (by decide)
    have hmirrors := mirrors_turn referenceSdk 0 reference_collisionFree sound_ready readable_ready
      represents_ready hreads hok
    exact ⟨hok, (hmirrors.getPatch "p").trans rfl⟩
  · obtain ⟨hsound, hreadable, -⟩ := represents_numbered
    apply GraphStore.queryObjects_refused reference_collisionFree hsound hreadable
    · intro htakes
      exact absurd (htakes _ rfl).2 (by decide)
    · decide

end ActiveGraphSurreal
