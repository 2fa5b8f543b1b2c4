import ActiveGraphSurreal.Proofs.Clearing
import ActiveGraphSurreal.Proofs.Codecs
import ActiveGraphSurreal.Proofs.Contents
import ActiveGraphSurreal.Proofs.Mutating
import ActiveGraphSurreal.Proofs.Views

/-!
# A projection is three maps

The reference model of a projection is a map of objects, one of relations and one of patches.
A graph store that works alone on its run keeps its tables in step with it, call by call,
whatever becomes of the vertices.
-/

namespace ActiveGraphSurreal

open Library

set_option linter.unusedSectionVars false

variable {F X : Type} [Json.ScalarText F]

/-! ### Mutations -/

inductive Mutation (F X : Type) where
  | putObject (obj : Object F X)
  | removeObject (objectId : String)
  | putRelation (rel : Relation F X)
  | removeRelation (relationId : String)
  | putPatch (patch : Patch F X)
  | removePatch (patchId : String)
  | clear

def Mutation.code (env : Env F X) : Mutation F X → Py GraphStore Unit
  | putObject obj => GraphStore.putObject env obj
  | removeObject objectId => GraphStore.removeObject env objectId
  | putRelation rel => GraphStore.putRelation env rel
  | removeRelation relationId => GraphStore.removeRelation env relationId
  | putPatch patch => GraphStore.putPatch env patch
  | removePatch patchId => GraphStore.removePatch env patchId
  | clear => GraphStore.clear

/-- The calls of a sequence that return, and the database after it. A call that raises is
passed over. -/
def runMutations (env : Env F X) (sdk : Sdk) (i : Nat) (store : GraphStore) :
    List (Mutation F X) → Database → List (Mutation F X) × Database
  | [], db => ([], db)
  | m :: ms, db =>
    match alone sdk i (m.code env) store db with
    | ((.ok (), _), db') =>
      let rest := runMutations env sdk i store ms db'
      (m :: rest.1, rest.2)
    | ((.error _, _), db') => runMutations env sdk i store ms db'

/-! ### The reference model -/

structure Maps (F X : Type) where
  objects : String → Option (Object F X)
  relations : String → Option (Relation F X)
  patches : String → Option (Patch F X)

def Maps.empty : Maps F X := ⟨fun _ => none, fun _ => none, fun _ => none⟩

def Maps.after (maps : Maps F X) : Mutation F X → Maps F X
  | .putObject obj => { maps with objects := Function.update maps.objects obj.id (some obj) }
  | .removeObject id => { maps with objects := Function.update maps.objects id none }
  | .putRelation rel => { maps with relations := Function.update maps.relations rel.id (some rel) }
  | .removeRelation id => { maps with relations := Function.update maps.relations id none }
  | .putPatch patch => { maps with patches := Function.update maps.patches patch.id (some patch) }
  | .removePatch id => { maps with patches := Function.update maps.patches id none }
  | .clear => .empty

variable (env : Env F X)

/-- What the first mutation stores, with the numbers as their fields hold them, is read back as
what the second one puts. -/
def Mutation.ReadsAs : Mutation F X → Mutation F X → Prop
  | .putObject obj, m => ∃ obj', m = .putObject obj' ∧ obj'.id = obj.id ∧
      ∀ version record, storedInt obj.version = some version →
        objectToRecord env { obj with version } = .ok record →
        objectFromRecord env record = .ok obj'
  | .putRelation rel, m => ∃ rel', m = .putRelation rel' ∧ rel'.id = rel.id ∧
      ∀ record, relationToRecord env rel = .ok record → recordToRelation env record = .ok rel'
  | .putPatch patch, m => ∃ patch', m = .putPatch patch' ∧ patch'.id = patch.id ∧
      ∀ expectedVersion record, storedInt patch.expectedVersion = some expectedVersion →
        patchToRecord env { patch with expectedVersion } = .ok record →
        patchFromRecord env record = .ok patch'
  | other, m => m = other

/-- The tables hold the three maps of the run, and the endpoints of every relation. -/
structure Represents (g : String × String) (t : Tables) (maps : Maps F X) : Prop where
  object : ∀ id obj, maps.objects id = some obj ↔
    (∃ row ∈ t.objectRows g.1 g.2, objectFromRow env row = .ok obj) ∧ obj.id = id
  relation : ∀ id rel, maps.relations id = some rel ↔
    (∃ row ∈ t.relationRows g.1 g.2, GraphStore.relationFromRow env row = .ok rel) ∧ rel.id = id
  patch : ∀ id patch, maps.patches id = some patch ↔
    (∃ row ∈ t.patchRows g.1 g.2, patchFromRecord env row.toPatchRecord = .ok patch) ∧
      patch.id = id
  legible : ∀ row ∈ t.patchRows g.1 g.2,
    ∃ patch : Patch F X, patchFromRecord env row.toPatchRecord = .ok patch
  source : ∀ row ∈ t.relationRows g.1 g.2, ∃ vertex, t.vertex.lookup row.inKey = some vertex
  target : ∀ row ∈ t.relationRows g.1 g.2, ∃ vertex, t.vertex.lookup row.outKey = some vertex

variable {env} {sdk : Sdk} {i : Nat} {g : String × String} {store : GraphStore} {t : Tables}
  {db : Database}

/-! ### The rows after a write -/

/-- The rows under other keys are those with other ids. -/
lemma mem_rows_other (hsha : CollisionFree env) {R : Type} {table : Table}
    {scope runId name : R → String} {records : Records R}
    (hplaced : ∀ k r, records.lookup k = some r →
      recordId env.sha256 table [scope r, runId r, name r] = .ok ⟨k⟩)
    {id key : String} (hkey : recordId env.sha256 table [g.1, g.2, id] = .ok ⟨key⟩) {r : R}
    (hr : (scope r, runId r) = g) : (∃ k, k ≠ key ∧ records.lookup k = some r) ↔
      (∃ k, records.lookup k = some r) ∧ name r ≠ id := by
  constructor
  · rintro ⟨k, hne, hk⟩
    refine ⟨⟨k, hk⟩, fun hname => hne ?_⟩
    have hplace := hplaced k r hk
    rw [← hr, ← hname] at hkey
    exact RecordId.mk.inj (Except.ok.inj (hplace.symm.trans hkey))
  · rintro ⟨⟨k, hk⟩, hname⟩
    refine ⟨k, ?_, hk⟩
    rintro rfl
    have hparts := (key_address hsha (g := (scope r, runId r)) (hplaced k r hk) hkey).2
    exact hname (List.singleton_inj.mp hparts)

lemma mem_objectRows_write (hsha : CollisionFree env) (ht : Placed env t) {id : String}
    {vertex : RecordId .agVertex} (hkey : vertexKey env g id = .ok vertex) {content : VertexRow}
    (hcontent : (content.scope, content.runId) = g) (row : VertexRow) :
    row ∈ ((Write.vertex vertex.key (some content)).apply t).objectRows g.1 g.2 ↔
      content = row ∧ content.objectPresent ∨ row ∈ t.objectRows g.1 g.2 ∧ row.objectId ≠ id := by
  rw [GraphStore.mem_objectRows, GraphStore.mem_objectRows]
  change (∃ k, (t.vertex.write vertex.key (some content)).lookup k = some row) ∧ _ ↔ _
  rw [Records.mem_rows_write, Option.some.injEq]
  constructor
  · rintro ⟨rfl | hother, haddress, hpresent⟩
    · exact .inl ⟨rfl, hpresent⟩
    · obtain ⟨hrow, hid⟩ := (mem_rows_other hsha ht.vertex hkey haddress).mp hother
      exact .inr ⟨⟨hrow, haddress, hpresent⟩, hid⟩
  · rintro (⟨rfl, hpresent⟩ | ⟨⟨hrow, haddress, hpresent⟩, hid⟩)
    · exact ⟨.inl rfl, hcontent, hpresent⟩
    · exact ⟨.inr ((mem_rows_other hsha ht.vertex hkey haddress).mpr ⟨hrow, hid⟩), haddress, hpresent⟩

lemma mem_relationRows_write (hsha : CollisionFree env) (ht : Placed env t) {id : String}
    {relation : RecordId .agRelation} (hkey : relationKey env g id = .ok relation)
    (content : Option RelationRow) (hcontent : ∀ row ∈ content, (row.scope, row.runId) = g)
    (row : RelationRow) :
    row ∈ ((Write.relation relation.key content).apply t).relationRows g.1 g.2 ↔
      content = some row ∨ row ∈ t.relationRows g.1 g.2 ∧ row.relationId ≠ id := by
  rw [GraphStore.mem_relationRows, GraphStore.mem_relationRows]
  change (∃ k, (t.relation.write relation.key content).lookup k = some row) ∧ _ ↔ _
  rw [Records.mem_rows_write]
  constructor
  · rintro ⟨hnew | hother, haddress⟩
    · exact .inl hnew
    · obtain ⟨hrow, hid⟩ := (mem_rows_other hsha ht.relation hkey haddress).mp hother
      exact .inr ⟨⟨hrow, haddress⟩, hid⟩
  · rintro (hnew | ⟨⟨hrow, haddress⟩, hid⟩)
    · exact ⟨.inl hnew, hcontent row hnew⟩
    · exact ⟨.inr ((mem_rows_other hsha ht.relation hkey haddress).mpr ⟨hrow, hid⟩), haddress⟩

lemma mem_patchRows {row : PatchRow} : row ∈ t.patchRows g.1 g.2 ↔
    (∃ key, t.patch.lookup key = some row) ∧ (row.scope, row.runId) = g := by
  unfold Tables.patchRows
  rw [List.mem_filter, Records.mem_rows]
  simp only [Bool.and_eq_true, decide_eq_true_eq, Prod.ext_iff]

lemma mem_patchRows_write (hsha : CollisionFree env) (ht : Placed env t) {id : String}
    {patch : RecordId .agPatch} (hkey : patchKey env g id = .ok patch)
    (content : Option PatchRow) (hcontent : ∀ row ∈ content, (row.scope, row.runId) = g)
    (row : PatchRow) : row ∈ ((Write.patch patch.key content).apply t).patchRows g.1 g.2 ↔
      content = some row ∨ row ∈ t.patchRows g.1 g.2 ∧ row.patchId ≠ id := by
  rw [mem_patchRows, mem_patchRows]
  change (∃ k, (t.patch.write patch.key content).lookup k = some row) ∧ _ ↔ _
  rw [Records.mem_rows_write]
  constructor
  · rintro ⟨hnew | hother, haddress⟩
    · exact .inl hnew
    · obtain ⟨hrow, hid⟩ := (mem_rows_other hsha ht.patch hkey haddress).mp hother
      exact .inr ⟨⟨hrow, haddress⟩, hid⟩
  · rintro (hnew | ⟨⟨hrow, haddress⟩, hid⟩)
    · exact ⟨.inl hnew, hcontent row hnew⟩
    · exact ⟨.inr ((mem_rows_other hsha ht.patch hkey haddress).mpr ⟨hrow, hid⟩), haddress⟩

/-! ### One write at a time -/

variable {maps : Maps F X}

lemma vertex_kept {w : VertexRow} {key k : String} (h : ∃ vertex, t.vertex.lookup k = some vertex) :
    ∃ vertex, ((Write.vertex key (some w)).apply t).vertex.lookup k = some vertex := by
  change ∃ vertex, (t.vertex.write key (some w)).lookup k = some vertex
  rw [Records.lookup_write]
  split
  · exact ⟨w, rfl⟩
  · exact h

/-- A map after an update, from the rows after the write. -/
lemma update_iff {A R : Type} {f : R → Except PyErr A} {name : A → String} {rowName : R → String}
    (hname : ∀ row a, f row = .ok a → name a = rowName row) {rows rows' added : R → Prop} {id : String}
    (hrows : ∀ row, rows' row ↔ added row ∨ rows row ∧ rowName row ≠ id)
    {map : String → Option A} (hmap : ∀ id a, map id = some a ↔
      (∃ row, rows row ∧ f row = .ok a) ∧ name a = id)
    {new : Option A} (hnew : ∀ a ∈ new, name a = id)
    (hadded : ∀ a, (∃ row, added row ∧ f row = .ok a) ↔ new = some a) (id' : String) (a : A) :
    Function.update map id new id' = some a ↔ (∃ row, rows' row ∧ f row = .ok a) ∧ name a = id' := by
  have hsplit : (∃ row, rows' row ∧ f row = .ok a) ↔
      new = some a ∨ ∃ row, (rows row ∧ rowName row ≠ id) ∧ f row = .ok a := by
    rw [← hadded]
    simp only [hrows, or_and_right, exists_or]
  rw [hsplit]
  by_cases hid : id' = id
  · subst hid
    rw [Function.update_self]
    constructor
    · intro h
      exact ⟨.inl h, hnew a h⟩
    · rintro ⟨h | ⟨row, ⟨-, hne⟩, hrow⟩, ha⟩
      · exact h
      · exact absurd ((hname row a hrow).symm.trans ha) hne
  · rw [Function.update_of_ne hid, hmap]
    constructor
    · rintro ⟨⟨row, hrow, ha⟩, rfl⟩
      refine ⟨.inr ⟨row, ⟨hrow, ?_⟩, ha⟩, rfl⟩
      rw [← hname row a ha]
      exact hid
    · rintro ⟨h | ⟨row, ⟨hrow, -⟩, ha⟩, rfl⟩
      · exact absurd (hnew a h) hid
      · exact ⟨⟨row, hrow, ha⟩, rfl⟩

theorem represents_putObject (hsha : CollisionFree env) (ht : Placed env t)
    (hm : Represents env g t maps) (haddress : store.address = g) {obj obj' : Object F X}
    {record : ObjectRecord} {vertex : RecordId .agVertex} (seq : Int)
    (hkey : vertexKey env g obj.id = .ok vertex) (hid : obj'.id = obj.id)
    (hreads : objectFromRecord env record = .ok obj') :
    Represents env g ((Write.vertex vertex.key (some (store.objectContent seq record))).apply t)
      (maps.after (.putObject obj')) := by
  have hcontent : ((store.objectContent seq record).scope,
      (store.objectContent seq record).runId) = g := haddress
  have hread : objectFromRow env (store.objectContent seq record) = .ok obj' := hreads
  refine ⟨?_, hm.relation, hm.patch, hm.legible, ?_, ?_⟩
  · rw [← hid] at hkey
    refine update_iff (fun _ _ => GraphStore.objectFromRow_id)
      (mem_objectRows_write hsha ht hkey hcontent) hm.object ?_ ?_
    · rintro a ha
      rw [Option.some.inj ha]
    · intro a
      constructor
      · rintro ⟨row, ⟨rfl, -⟩, ha⟩
        rw [Except.ok.inj (hread.symm.trans ha)]
      · intro ha
        obtain rfl := Option.some.inj ha
        exact ⟨_, ⟨rfl, rfl⟩, hread⟩
  · exact fun row hrow => vertex_kept (hm.source row hrow)
  · exact fun row hrow => vertex_kept (hm.target row hrow)

theorem represents_placeholder (hsha : CollisionFree env) (ht : Placed env t)
    (hm : Represents env g t maps) (haddress : store.address = g) {id : String}
    {vertex : RecordId .agVertex} (seq : Int) (hkey : vertexKey env g id = .ok vertex) :
    Represents env g ((Write.vertex vertex.key (some (store.placeholderRow id seq))).apply t)
      (maps.after (.removeObject id)) := by
  have hcontent : ((store.placeholderRow id seq).scope, (store.placeholderRow id seq).runId) = g :=
    haddress
  refine ⟨?_, hm.relation, hm.patch, hm.legible, ?_, ?_⟩
  · refine update_iff (fun _ _ => GraphStore.objectFromRow_id)
      (mem_objectRows_write hsha ht hkey hcontent) hm.object (by simp) ?_
    intro a
    refine iff_of_false ?_ (by simp)
    rintro ⟨row, ⟨-, hpresent⟩, -⟩
    cases hpresent
  · exact fun row hrow => vertex_kept (hm.source row hrow)
  · exact fun row hrow => vertex_kept (hm.target row hrow)

/-- Without a vertex there is no object. -/
lemma object_none (ht : Placed env t) (hm : Represents env g t maps) {id : String}
    {vertex : RecordId .agVertex} (hkey : vertexKey env g id = .ok vertex)
    (hnone : t.vertex.lookup vertex.key = none) : maps.objects id = none := by
  rw [Option.eq_none_iff_forall_ne_some]
  intro obj hobj
  obtain ⟨⟨row, hrow, hread⟩, rfl⟩ := (hm.object id obj).mp hobj
  obtain ⟨⟨key, hlookup⟩, haddress, -⟩ := GraphStore.mem_objectRows.mp hrow
  have hplace := ht.vertex key row hlookup
  rw [haddress, ← GraphStore.objectFromRow_id hread, hkey] at hplace
  rw [← RecordId.mk.inj (Except.ok.inj hplace), hnone] at hlookup
  cases hlookup

lemma after_removeObject {id : String} (h : maps.objects id = none) :
    maps.after (.removeObject id) = maps := by
  change { maps with objects := Function.update maps.objects id none } = maps
  rw [← h, Function.update_eq_self]

/-- The two writes of a relation, with both endpoints there. -/
theorem represents_putRelation (hsha : CollisionFree env) (ht : Placed env t)
    (hm : Represents env g t maps) (haddress : store.address = g) {rel rel' : Relation F X}
    {record : RelationRecord} {source target : RecordId .agVertex}
    {relation : RecordId .agRelation} (hkey : relationKey env g rel.id = .ok relation)
    (hid : rel'.id = rel.id) (hreads : recordToRelation env record = .ok rel')
    (hsource : ∃ vertex, t.vertex.lookup source.key = some vertex)
    (htarget : ∃ vertex, t.vertex.lookup target.key = some vertex) :
    Represents env g
      ((engine sdk).applyAll (store.relationWrites source target relation record) t)
      (maps.after (.putRelation rel')) := by
  let content := store.relationContent source target record
  have hgone : Placed env ((Write.relation relation.key none).apply t) := by
    have hwithin : (Write.relation relation.key none).Within env g := ⟨rel.id, hkey, nofun⟩
    exact placed_apply ht hwithin
  have hrows : ∀ row, row ∈ ((engine sdk).applyAll (store.relationWrites source target relation
      record) t).relationRows g.1 g.2 ↔
      content = row ∨ row ∈ t.relationRows g.1 g.2 ∧ row.relationId ≠ rel'.id := by
    intro row
    have hcontent : ∀ row ∈ some content, (row.scope, row.runId) = g := by
      intro row hrow
      rw [← Option.some.inj hrow]
      exact haddress
    change row ∈ ((Write.relation relation.key (some content)).apply
      ((Write.relation relation.key none).apply t)).relationRows g.1 g.2 ↔ _
    rw [mem_relationRows_write hsha hgone hkey _ hcontent,
      mem_relationRows_write hsha ht hkey none nofun, hid]
    simp
  have hread : GraphStore.relationFromRow env content = .ok rel' := hreads
  refine ⟨hm.object, ?_, hm.patch, hm.legible, ?_, ?_⟩
  · refine update_iff (fun _ _ => GraphStore.relationFromRow_id) hrows hm.relation ?_ ?_
    · rintro a ha
      rw [Option.some.inj ha]
    · intro a
      constructor
      · rintro ⟨row, rfl, ha⟩
        rw [Except.ok.inj (hread.symm.trans ha)]
      · intro ha
        obtain rfl := Option.some.inj ha
        exact ⟨_, rfl, hread⟩
  · intro row hrow
    rcases (hrows row).mp hrow with rfl | ⟨hold, -⟩
    · exact hsource
    · exact hm.source row hold
  · intro row hrow
    rcases (hrows row).mp hrow with rfl | ⟨hold, -⟩
    · exact htarget
    · exact hm.target row hold

theorem represents_removeRelation (hsha : CollisionFree env) (ht : Placed env t)
    (hm : Represents env g t maps) {id : String} {relation : RecordId .agRelation}
    (hkey : relationKey env g id = .ok relation) :
    Represents env g ((Write.relation relation.key none).apply t)
      (maps.after (.removeRelation id)) := by
  have hrows : ∀ row, row ∈ ((Write.relation relation.key none).apply t).relationRows g.1 g.2 ↔
      none = some row ∨ row ∈ t.relationRows g.1 g.2 ∧ row.relationId ≠ id :=
    mem_relationRows_write hsha ht hkey none nofun
  refine ⟨hm.object, ?_, hm.patch, hm.legible, ?_, ?_⟩
  · exact update_iff (fun _ _ => GraphStore.relationFromRow_id) hrows hm.relation (by simp) (by simp)
  · intro row hrow
    rcases (hrows row).mp hrow with hnew | ⟨hold, -⟩
    · cases hnew
    · exact hm.source row hold
  · intro row hrow
    rcases (hrows row).mp hrow with hnew | ⟨hold, -⟩
    · cases hnew
    · exact hm.target row hold

lemma patchFromRecord_id {record : PatchRecord} {patch : Patch F X}
    (h : patchFromRecord env record = .ok patch) : patch.id = record.patchId := by
  obtain ⟨_, -, h⟩ := bind_eq_ok.mp h
  obtain ⟨_, -, h⟩ := bind_eq_ok.mp h
  obtain ⟨_, -, h⟩ := bind_eq_ok.mp h
  obtain ⟨_, -, h⟩ := bind_eq_ok.mp h
  rw [← pure_eq_ok.mp h]

theorem represents_putPatch (hsha : CollisionFree env) (ht : Placed env t)
    (hm : Represents env g t maps) (haddress : store.address = g) {patch patch' : Patch F X}
    {content : PatchRecord} {record : RecordId .agPatch}
    (hkey : patchKey env g patch.id = .ok record) (hid : patch'.id = patch.id)
    (hreads : patchFromRecord env content = .ok patch') :
    Represents env g ((Write.patch record.key (some (store.patchContent content))).apply t)
      (maps.after (.putPatch patch')) := by
  have hcontent : ∀ row ∈ some (store.patchContent content), (row.scope, row.runId) = g := by
    intro row hrow
    rw [← Option.some.inj hrow]
    exact haddress
  have hrows := mem_patchRows_write hsha ht hkey _ hcontent
  have hread : patchFromRecord env (store.patchContent content).toPatchRecord = .ok patch' := hreads
  rw [← hid] at hrows
  refine ⟨hm.object, hm.relation, ?_, ?_, hm.source, hm.target⟩
  · refine update_iff (f := fun row : PatchRow => patchFromRecord env row.toPatchRecord)
      (fun _ _ => patchFromRecord_id) hrows hm.patch ?_ ?_
    · rintro a ha
      rw [Option.some.inj ha]
    · intro a
      constructor
      · rintro ⟨row, hrow, ha⟩
        rw [← Option.some.inj hrow, hread] at ha
        rw [Except.ok.inj ha]
      · intro ha
        obtain rfl := Option.some.inj ha
        exact ⟨_, rfl, hread⟩
  · intro row hrow
    rcases (hrows row).mp hrow with hnew | ⟨hold, -⟩
    · rw [← Option.some.inj hnew]
      exact ⟨patch', hread⟩
    · exact hm.legible row hold

theorem represents_removePatch (hsha : CollisionFree env) (ht : Placed env t)
    (hm : Represents env g t maps) {id : String} {record : RecordId .agPatch}
    (hkey : patchKey env g id = .ok record) :
    Represents env g ((Write.patch record.key none).apply t) (maps.after (.removePatch id)) := by
  have hrows : ∀ row, row ∈ ((Write.patch record.key none).apply t).patchRows g.1 g.2 ↔
      none = some row ∨ row ∈ t.patchRows g.1 g.2 ∧ row.patchId ≠ id :=
    mem_patchRows_write hsha ht hkey none nofun
  refine ⟨hm.object, hm.relation, ?_, ?_, hm.source, hm.target⟩
  · exact update_iff (f := fun row : PatchRow => patchFromRecord env row.toPatchRecord)
      (fun _ _ => patchFromRecord_id) hrows hm.patch (by simp) (by simp)
  · intro row hrow
    rcases (hrows row).mp hrow with hnew | ⟨hold, -⟩
    · cases hnew
    · exact hm.legible row hold

/-- Without objects, relations and patches the maps are empty. -/
lemma represents_empty (hobject : t.objectRows g.1 g.2 = []) (hrelation : t.relationRows g.1 g.2 = [])
    (hpatch : t.patchRows g.1 g.2 = []) : Represents env g t Maps.empty := by
  refine ⟨?_, ?_, ?_, ?_, ?_, ?_⟩
  · simp [Maps.empty, hobject]
  · simp [Maps.empty, hrelation]
  · simp [Maps.empty, hpatch]
  · simp [hpatch]
  · simp [hrelation]
  · simp [hrelation]

/-! ### One call at a time -/

/-- The methods of a run keep the tables sound and leave the status as it is. -/
lemma kept_inside (hsha : CollisionFree env) (sdk : Sdk) (g : String × String)
    (records : Records ProjectionRow) : Kept (engine sdk) (Stmt.Inside env g)
      (fun t => Sound env t ∧ t.projection = records)
      (fun w => w.Bound env g ∧ w.OnEntities) where
  exec st t r ws hst ht hexec w hw :=
    ⟨(kept_bound hsha sdk g).exec st t r ws hst.toBound ht.1 hexec w hw,
      exec_entities hst.contents hexec w hw⟩
  apply t w ht hw := by
    have hsame : ((engine sdk).applyAll [w] t).projection = t.projection :=
      projection_applyAll fun w' hw' => List.mem_singleton.mp hw' ▸ hw.2
    exact ⟨(kept_bound hsha sdk g).apply t w ht.1 hw.1, hsame.trans ht.2⟩

variable (sdk i) in
lemma alone_kept (hsha : CollisionFree env) {α : Type} {m : Py GraphStore α}
    (hm : GraphStore.Inside env g false m) (ht : Sound env db.tables) (h : store.At env g) :
    Sound env (alone sdk i m store db).2.tables ∧
      (alone sdk i m store db).2.tables.projection = db.tables.projection := by
  have hconfined := hm store false h nofun
  have hexec : (m store).Exec ((engine sdk).serve (faults True False) i) db _ _ _ :=
    exec_alone (m store) db
  exact (hconfined.exec (kept_inside hsha sdk g db.tables.projection) hexec ⟨ht, rfl⟩ nofun).1

lemma inside_mutation (m : Mutation F X) : GraphStore.Inside env g false (m.code env) := by
  cases m with
  | putObject obj => exact GraphStore.inside_putObject obj
  | removeObject id => exact GraphStore.inside_removeObject id
  | putRelation rel => exact GraphStore.inside_putRelation rel
  | removeRelation id => exact GraphStore.inside_removeRelation id
  | putPatch patch => exact GraphStore.inside_putPatch patch
  | removePatch id => exact GraphStore.inside_removePatch id
  | clear => exact GraphStore.inside_clear

variable {ws : List Write}

/-- An endpoint that is there after its plan. -/
lemma represents_endpoint (hsha : CollisionFree env) (ht : Placed env t)
    (hm : Represents env g t maps) (haddress : store.address = g) {id : String}
    {vertex : RecordId .agVertex} (hkey : vertexKey env g id = .ok vertex)
    (hplan : store.endpointPlan sdk t vertex id = .ok ws) :
    Represents env g ((engine sdk).applyAll ws t) maps ∧
      (∃ row, ((engine sdk).applyAll ws t).vertex.lookup vertex.key = some row) ∧
      ∀ k, (∃ row, t.vertex.lookup k = some row) →
        ∃ row, ((engine sdk).applyAll ws t).vertex.lookup k = some row := by
  rcases GraphStore.endpointPlan_iff.mp hplan with ⟨hsome, rfl⟩ | ⟨hnone, hstub⟩
  · exact ⟨hm, Option.ne_none_iff_exists'.mp hsome, fun _ hk => hk⟩
  · obtain ⟨n, seq, -, -, rfl⟩ := GraphStore.stub_iff.mp hstub
    have hnew := represents_placeholder hsha ht hm haddress seq hkey
    rw [after_removeObject (object_none ht hm hkey hnone)] at hnew
    refine ⟨hnew, ⟨store.placeholderRow id seq, ?_⟩, fun k hk => vertex_kept hk⟩
    have hlookup : ((engine sdk).applyAll [.vertex vertex.key (some (store.placeholderRow id seq))]
        t).vertex.lookup vertex.key = if vertex.key = vertex.key then
          some (store.placeholderRow id seq) else t.vertex.lookup vertex.key :=
      Records.lookup_write ..
    rw [hlookup, if_pos rfl]

lemma represents_relationPlan (hsha : CollisionFree env) (ht : Placed env t)
    (hm : Represents env g t maps) (h : store.At env g) {rel rel' : Relation F X}
    (hid : rel'.id = rel.id) (hreads : ∀ record, relationToRecord env rel = .ok record →
      recordToRelation env record = .ok rel')
    (hplan : store.putRelationPlan env sdk t rel = .ok ws) :
    Represents env g ((engine sdk).applyAll ws t) (maps.after (.putRelation rel')) := by
  obtain ⟨source, target, relation, hsource, htarget, hrelation, hplan⟩ :=
    GraphStore.putRelationPlan_iff.mp hplan
  rw [h.address] at hsource htarget hrelation
  obtain ⟨first, second, record, hfirst, hsecond, hrecord, rfl⟩ :=
    GraphStore.transactionPlan_iff.mp hplan
  obtain ⟨hm₁, hthere, -⟩ := represents_endpoint hsha ht hm h.address hsource hfirst
  have ht₁ := GraphStore.placed_endpoint ht h hsource hfirst
  obtain ⟨hm₂, hthere', hkept⟩ := represents_endpoint hsha ht₁ hm₁ h.address htarget hsecond
  have ht₂ := GraphStore.placed_endpoint ht₁ h htarget hsecond
  rw [Engine.applyAll_append, Engine.applyAll_append]
  exact represents_putRelation hsha ht₂ hm₂ h.address hrelation hid (hreads record hrecord)
    (hkept _ hthere) hthere'

/-- The plan of a mutation. -/
def Mutation.plan (env : Env F X) (sdk : Sdk) (store : GraphStore) (t : Tables) :
    Mutation F X → Except PyErr (List Write)
  | putObject obj => store.putObjectPlan env sdk obj
  | removeObject id => store.removeObjectPlan env sdk t id
  | putRelation rel => store.putRelationPlan env sdk t rel
  | removeRelation id => store.removeRelationPlan env id
  | putPatch patch => store.putPatchPlan env sdk patch
  | removePatch id => store.removePatchPlan env id
  | clear => .ok []

variable (sdk i) in
lemma does_mutation (hsha : CollisionFree env) (ht : Placed env db.tables)
    (h : store.Readable env g db.tables) {m : Mutation F X} (hclear : m ≠ .clear) :
    Does sdk i (m.code env) store db (m.plan env sdk store db.tables) := by
  cases m with
  | putObject obj => exact GraphStore.does_putObject hsha ht h obj
  | removeObject id => exact GraphStore.does_removeObject hsha ht h id
  | putRelation rel => exact GraphStore.does_putRelation hsha ht h rel
  | removeRelation id => exact GraphStore.does_removeRelation hsha ht h id
  | putPatch patch => exact GraphStore.does_putPatch hsha ht h patch
  | removePatch id => exact GraphStore.does_removePatch hsha ht h id
  | clear => exact absurd rfl hclear

/-- A plan that is carried out takes the maps one step on. -/
theorem represents_plan (hsha : CollisionFree env) (ht : Placed env t)
    (hm : Represents env g t maps) (h : store.At env g) {m m' : Mutation F X}
    (hreads : m.ReadsAs env m') (hclear : m ≠ .clear) (hplan : m.plan env sdk store t = .ok ws) :
    Represents env g ((engine sdk).applyAll ws t) (maps.after m') := by
  cases m with
  | putObject obj =>
    obtain ⟨obj', rfl, hid, hreads⟩ := hreads
    obtain ⟨n, seq, version, record, vertex, -, -, hversion, hrecord, hkey, rfl⟩ :=
      GraphStore.putObjectPlan_iff.mp hplan
    rw [h.address] at hkey
    exact represents_putObject hsha ht hm h.address seq hkey hid
      (hreads version record hversion hrecord)
  | removeObject id =>
    obtain rfl : m' = .removeObject id := hreads
    obtain ⟨vertex, hkey, ⟨hnone, rfl⟩ | ⟨-, hstub⟩⟩ := GraphStore.removeObjectPlan_iff.mp hplan
    · rw [h.address] at hkey
      rw [after_removeObject (object_none ht hm hkey hnone)]
      exact hm
    · rw [h.address] at hkey
      obtain ⟨n, seq, -, -, rfl⟩ := GraphStore.stub_iff.mp hstub
      exact represents_placeholder hsha ht hm h.address seq hkey
  | putRelation rel =>
    obtain ⟨rel', rfl, hid, hreads⟩ := hreads
    exact represents_relationPlan hsha ht hm h hid hreads hplan
  | removeRelation id =>
    obtain rfl : m' = .removeRelation id := hreads
    obtain ⟨relation, hkey, hplan⟩ := bind_eq_ok.mp hplan
    obtain rfl := pure_eq_ok.mp hplan
    rw [h.address] at hkey
    exact represents_removeRelation hsha ht hm hkey
  | putPatch patch =>
    obtain ⟨patch', rfl, hid, hreads⟩ := hreads
    obtain ⟨expectedVersion, record, content, hversion, hkey, hcontent, rfl⟩ :=
      GraphStore.putPatchPlan_iff.mp hplan
    rw [h.address] at hkey
    exact represents_putPatch hsha ht hm h.address hkey hid
      (hreads expectedVersion content hversion hcontent)
  | removePatch id =>
    obtain rfl : m' = .removePatch id := hreads
    obtain ⟨record, hkey, hplan⟩ := bind_eq_ok.mp hplan
    obtain rfl := pure_eq_ok.mp hplan
    rw [h.address] at hkey
    exact represents_removePatch hsha ht hm hkey
  | clear => exact absurd rfl hclear

/-- What a mutation can do to a projection that represents three maps. -/
structure Turns (env : Env F X) (sdk : Sdk) (i : Nat) (g : String × String) (store : GraphStore)
    (db : Database) (maps : Maps F X) (m m' : Mutation F X) (r : Except PyErr Unit)
    (db' : Database) : Prop where
  run : alone sdk i (m.code env) store db = ((r, store), db')
  sound : Sound env db'.tables
  readable : store.Readable env g db'.tables
  maps : r = .ok () ∧ Represents env g db'.tables (maps.after m') ∨
    ∃ e, r = .error e ∧ db'.tables = db.tables

variable (sdk i) in
/-- A mutation other than `clear` carries out its plan or raises. -/
lemma alone_mutation (hsha : CollisionFree env) (ht : Sound env db.tables)
    (h : store.Readable env g db.tables) {m : Mutation F X} (hclear : m ≠ .clear) :
    ∃ db', alone sdk i (m.code env) store db =
        (((m.plan env sdk store db.tables).map fun _ => (), store), db') ∧
      Sound env db'.tables ∧ store.Readable env g db'.tables ∧ db'.tables = (engine sdk).applyAll
        ((m.plan env sdk store db.tables).toOption.getD []) db.tables := by
  obtain ⟨hsound, hprojection⟩ := alone_kept sdk i hsha (inside_mutation m) ht h.toAt
  obtain ⟨row, hrow, hserves⟩ := h.status
  have hdoes := does_mutation sdk i hsha ht.toPlaced h hclear
  exact ⟨_, Prod.ext hdoes.answer rfl, hsound,
    ⟨h.toAt, h.opened, row, hprojection ▸ hrow, hserves⟩, hdoes.tables⟩

variable (sdk i) in
theorem turns (hsha : CollisionFree env) (ht : Sound env db.tables)
    (h : store.Readable env g db.tables) (hm : Represents env g db.tables maps)
    {m m' : Mutation F X} (hreads : m.ReadsAs env m') :
    ∃ r db', Turns env sdk i g store db maps m m' r db' := by
  obtain ⟨hsound, hprojection⟩ := alone_kept sdk i hsha (inside_mutation m) ht h.toAt
  have hreadable : store.Readable env g (alone sdk i (m.code env) store db).2.tables := by
    obtain ⟨row, hrow, hserves⟩ := h.status
    exact ⟨h.toAt, h.opened, row, hprojection ▸ hrow, hserves⟩
  by_cases hclear : m = .clear
  · subst hclear
    obtain rfl : m' = .clear := hreads
    have hrun : alone sdk i GraphStore.clear store db =
        ((.ok (), store), GraphStore.cleared sdk i g db) := GraphStore.alone_clear h.toAt h.opened
    obtain ⟨hobjects, hrelations, hpatches⟩ :=
      GraphStore.rows_cleared sdk i (g := g) hsha ht.toPlaced
    refine ⟨.ok (), _, hrun, ?_, ?_, .inl ⟨rfl, represents_empty hobjects hrelations hpatches⟩⟩
    · change Sound env (alone sdk i GraphStore.clear store db).2.tables at hsound
      rw [hrun] at hsound
      exact hsound
    · change store.Readable env g (alone sdk i GraphStore.clear store db).2.tables at hreadable
      rw [hrun] at hreadable
      exact hreadable
  · obtain ⟨db', hrun, hsound', hreadable', htables⟩ := alone_mutation sdk i hsha ht h hclear
    refine ⟨_, db', hrun, hsound', hreadable', ?_⟩
    rw [htables]
    cases hplan : m.plan env sdk store db.tables with
    | error e => exact .inr ⟨e, rfl, rfl⟩
    | ok ws => exact .inl ⟨rfl, represents_plan hsha ht.toPlaced hm h.toAt hreads hclear hplan⟩

end ActiveGraphSurreal
