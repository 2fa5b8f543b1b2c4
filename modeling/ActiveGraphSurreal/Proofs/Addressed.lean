import ActiveGraphSurreal.Library.Confined
import ActiveGraphSurreal.Proofs.Parts
import ActiveGraphSurreal.Proofs.Writers
import ActiveGraphSurreal.Runtime

/-!
# Stores stay in their runs

Every statement of a store is one of the run to which the store is bound, and what it stores
can be read back. A store commits only the transactions that it has begun itself.
-/

namespace ActiveGraphSurreal

open Library

set_option linter.unusedSectionVars false

variable {F X : Type} [Json.ScalarText F] (env : Env F X)

/-! ### Rows that can be read back -/

def VertexRow.Legible (row : VertexRow) : Prop :=
  row.objectPresent = true → ∃ obj, objectFromRow env row = .ok obj

def RelationRow.Legible (row : RelationRow) : Prop :=
  ∃ rel, GraphStore.relationFromRow env row = .ok rel

/-- Tables in which every row is in its place and every present object and every relation
can be read. -/
structure Sound (t : Tables) : Prop extends Placed env t where
  object : ∀ key row, t.vertex.lookup key = some row → row.Legible env
  rel : ∀ key row, t.relation.lookup key = some row → row.Legible env

def Write.Legible : Write → Prop
  | .vertex _ (some row) => row.Legible env
  | .relation _ (some row) => row.Legible env
  | _ => True

def Stmt.Legible : Stmt → Prop
  | .createVertex _ content | .upsertVertex _ content => content.Legible env
  | .insertRelation _ content => content.Legible env
  | _ => True

/-- A statement of a run that stores what can be read back. -/
structure Stmt.Bound (g : String × String) (st : Stmt) : Prop where
  of : st.Of env g
  legible : st.Legible env

/-- A statement that works on the contents of a projection. -/
def Stmt.OnContents : Stmt → Prop
  | .selectProjection _ | .selectVertex _ | .createVertex _ _ | .upsertVertex _ _
  | .selectObjects _ _ _ _ _ | .selectRelation _ | .deleteRelation _ | .insertRelation _ _
  | .selectRelations _ _ _ _ | .selectPatch _ | .upsertPatch _ _ | .deletePatch _
  | .selectPatches _ _ | .deleteRelations _ _ | .deletePatches _ _ | .deleteVertices _ _ => True
  | _ => False

structure Stmt.Inside (g : String × String) (st : Stmt) : Prop extends st.Bound env g where
  contents : st.OnContents

/-- A write to the part of a run of what can be read back. -/
structure Write.Bound (g : String × String) (w : Write) : Prop where
  within : w.Within env g
  legible : w.Legible env

variable {env} {g : String × String} {t : Tables} {sdk : Sdk}

lemma sound_empty : Sound env Tables.empty := by
  refine ⟨placed_empty env, ?_, ?_⟩
  · intro key row h
    cases h
  · intro key row h
    cases h

lemma sound_apply (h : Sound env t) {w : Write} (hplaced : Placed env (w.apply t))
    (hw : w.Legible env) : Sound env (w.apply t) := by
  cases w with
  | vertex key row =>
    refine ⟨hplaced, lookup_writeWith h.object ?_, h.rel⟩
    rintro r rfl
    exact hw
  | relation key row =>
    refine ⟨hplaced, h.object, lookup_writeWith h.rel ?_⟩
    rintro r rfl
    exact hw
  | _ => exact ⟨hplaced, h.object, h.rel⟩

lemma required_eq_ok {α : Type} {field : String} {value : Option α} {a : α} :
    required env field value = .ok a ↔ value = some a := by
  cases value with
  | none => simp [required]
  | some b => simp [required]

/-- A row that can be read is read with the version that its field holds. -/
lemma objectFromRow_stored {content row : VertexRow} {obj : Object F X}
    (hobj : objectFromRow env content = .ok obj) (hrow : content.stored sdk = .ok row) :
    ∃ version, storedInt obj.version = some version ∧
      objectFromRow env row = .ok { obj with version } := by
  obtain ⟨seq, stored, -, hstored, rfl⟩ := VertexRow.stored_eq_ok.mp hrow
  obtain ⟨objectType, htype, h⟩ := bind_eq_ok.mp hobj
  obtain ⟨dataJson, hdata, h⟩ := bind_eq_ok.mp h
  obtain ⟨data, hloads, h⟩ := bind_eq_ok.mp h
  obtain ⟨version, hversion, h⟩ := bind_eq_ok.mp h
  obtain ⟨provenanceJson, hprovenance, h⟩ := bind_eq_ok.mp h
  obtain ⟨provenance, hloads', h⟩ := bind_eq_ok.mp h
  obtain rfl := pure_eq_ok.mp h
  obtain ⟨held, hheld, rfl⟩ : ∃ held, storedInt version = some held ∧ some held = stored := by
    simpa [required_eq_ok.mp hversion] using hstored
  refine ⟨held, hheld, bind_eq_ok.mpr ⟨objectType, htype, bind_eq_ok.mpr ⟨dataJson, hdata, ?_⟩⟩⟩
  exact bind_eq_ok.mpr ⟨data, hloads, bind_eq_ok.mpr ⟨held, rfl,
    bind_eq_ok.mpr ⟨provenanceJson, hprovenance, bind_eq_ok.mpr ⟨provenance, hloads', rfl⟩⟩⟩⟩

lemma VertexRow.stored_legible {content row : VertexRow} (h : content.Legible env)
    (hrow : content.stored sdk = .ok row) : row.Legible env := by
  intro hpresent
  have hcontent : content.objectPresent = true := by
    obtain ⟨seq, version, -, -, rfl⟩ := VertexRow.stored_eq_ok.mp hrow
    exact hpresent
  obtain ⟨obj, hobj⟩ := h hcontent
  obtain ⟨version, -, hread⟩ := objectFromRow_stored hobj hrow
  exact ⟨_, hread⟩

lemma update_legible {records : Records RunRow} {key : String} {f : RunRow → RunRow} :
    ∀ w ∈ (update records key f).2, w.Legible env := by
  intro w hw
  unfold update at hw
  split at hw
  · cases hw
  · rw [List.mem_singleton.mp hw]
    trivial

lemma map_legible {keys : List String} {write : String → Write}
    (hwrite : ∀ key, (write key).Legible env) : ∀ w ∈ keys.map write, w.Legible env := by
  intro w hw
  obtain ⟨key, -, rfl⟩ := List.mem_map.mp hw
  exact hwrite key

lemma exec_legible {st : Stmt} (hof : st.Of env g) (hst : st.Legible env) {r : st.Reply}
    {ws : List Write} (hexec : st.exec sdk t = .ok (r, ws)) : ∀ w ∈ ws, w.Legible env := by
  have hone : ∀ {w : Write}, ws = [w] → w.Legible env → ∀ w ∈ ws, w.Legible env := by
    rintro w rfl hw w' hw'
    rw [List.mem_singleton.mp hw']
    exact hw
  have hread : ws = [] → ∀ w ∈ ws, w.Legible env := by
    rintro rfl w hw
    cases hw
  have hwrites : ∀ {reply : st.Reply} {ws' : List Write}, st.exec sdk t = .ok (reply, ws') →
      ws = ws' := fun hok => (Prod.mk.inj (Except.ok.inj (hexec.symm.trans hok))).2
  cases st with
  | connect => exact hof.elim
  | selectSchema => exact hof.elim
  | define ddl => exact hof.elim
  | createSchema row => exact hof.elim
  | updateSchemaVersion version => exact hof.elim
  | timeNow => exact hof.elim
  | createRun record content => exact hone (create_writes hexec) trivial
  | mergeHead record nextSeq headHash =>
    rw [hwrites rfl]
    exact update_legible
  | mergeRun record patch =>
    rw [hwrites rfl]
    exact update_legible
  | countEvents scope runId =>
    apply hread
    simp only [Stmt.exec] at hexec
    split at hexec
    · exact (Prod.mk.inj (Except.ok.inj hexec)).2.symm
    · exact (Prod.mk.inj (Except.ok.inj hexec)).2.symm
  | createEvent record content => exact hone (create_writes hexec) trivial
  | deleteEventsAfter scope runId cutoffSeq =>
    rw [hwrites rfl]
    exact map_legible fun _ => trivial
  | createProjection record content => exact hone (create_writes hexec) trivial
  | upsertProjection record content => exact hone (upsert_writes hexec) trivial
  | createVertex record content =>
    obtain ⟨row, hrow, hws⟩ := createVertex_writes hexec
    exact hone hws (VertexRow.stored_legible hst hrow)
  | upsertVertex record content =>
    obtain ⟨row, hrow, hws⟩ := upsertVertex_writes hexec
    exact hone hws (VertexRow.stored_legible hst hrow)
  | selectObjects scope runId filter ordered limit => exact hread (takeLimit_writes hexec)
  | deleteRelation record => exact hone (hwrites rfl) trivial
  | insertRelation record content => exact hone (create_writes hexec) hst
  | upsertPatch record content =>
    obtain ⟨row, -, hws⟩ := upsertPatch_writes hexec
    exact hone hws trivial
  | deletePatch record => exact hone (hwrites rfl) trivial
  | deleteRelations scope runId =>
    rw [hwrites rfl]
    exact map_legible fun _ => trivial
  | deletePatches scope runId =>
    rw [hwrites rfl]
    exact map_legible fun _ => trivial
  | deleteVertices scope runId =>
    rw [hwrites rfl]
    intro w hw
    rcases List.mem_append.mp hw with hw | hw
    · obtain ⟨key, -, rfl⟩ := List.mem_map.mp hw
      trivial
    · obtain ⟨key, -, rfl⟩ := List.mem_map.mp hw
      trivial
  | selectRun record => exact hread (hwrites rfl)
  | selectEvent record => exact hread (hwrites rfl)
  | selectEvents scope runId => exact hread (hwrites rfl)
  | selectProjection record => exact hread (hwrites rfl)
  | selectVertex record => exact hread (hwrites rfl)
  | selectRelation record => exact hread (hwrites rfl)
  | selectRelations scope runId filter ordered => exact hread (hwrites rfl)
  | selectPatch record => exact hread (hwrites rfl)
  | selectPatches scope runId => exact hread (hwrites rfl)

/-- The statements of a run keep the tables sound by writes to the part of the run. -/
theorem kept_bound (hsha : CollisionFree env) (sdk : Sdk) (g : String × String) :
    Kept (engine sdk) (Stmt.Bound env g) (Sound env) (Write.Bound env g) where
  exec _ _ _ _ hst ht hexec w hw :=
    ⟨exec_within hsha ht.toPlaced hst.of hexec w hw, exec_legible hst.of hst.legible hexec w hw⟩
  apply _ _ ht hw := sound_apply ht (placed_apply ht.toPlaced hw.within) hw.legible

/-! ### Confined methods -/

section rules

variable {α β ℓ : Type} {P : Stmt → Prop} {I : ℓ → Prop} {begun : Bool}

/-- The method makes statements of `P` only and leaves the local state in `I`. -/
def KeepsTo (P : Stmt → Prop) (I : ℓ → Prop) (begun : Bool) (m : Py ℓ α) : Prop :=
  ∀ l b, I l → (begun = true → b = true) →
    Confined P (fun b' x => (b = true → b' = true) ∧ I x.2) b (m l)

lemma KeepsTo.mono {P' : Stmt → Prop} (hP : ∀ st, P st → P' st) {m : Py ℓ α}
    (hm : KeepsTo P I begun m) : KeepsTo P' I begun m :=
  fun l b hl hb => (hm l b hl hb).mono hP fun _ _ => id

lemma keepsTo_pure (a : α) : KeepsTo P I begun (pure a) := fun _ _ hl _ => ⟨id, hl⟩

lemma keepsTo_throw (e : PyErr) : KeepsTo P I begun (throw e : Py ℓ α) := fun _ _ hl _ => ⟨id, hl⟩

lemma keepsTo_lift (x : Except PyErr α) : KeepsTo P I begun (lift x : Py ℓ α) := by
  intro l b hl _
  cases x with
  | error e => exact ⟨id, hl⟩
  | ok a => exact ⟨id, hl⟩

lemma keepsTo_modify {f : ℓ → ℓ} (hf : ∀ l, I l → I (f l)) :
    KeepsTo P I begun (modify f : Py ℓ Unit) := fun l _ hl _ => ⟨id, hf l hl⟩

lemma keepsTo_query {st : Stmt} (hst : P st) : KeepsTo P I begun (query st : Py ℓ st.Reply) :=
  fun _ _ hl _ => ⟨hst, fun _ => ⟨id, hl⟩⟩

lemma keepsTo_txQuery {st : Stmt} (hst : P st) : KeepsTo P I true (txQuery st : Py ℓ st.Reply) :=
  fun _ _ hl hb => ⟨⟨hb rfl, hst⟩, fun _ => ⟨id, hl⟩⟩

lemma keepsTo_commit : KeepsTo P I true (commit : Py ℓ Unit) :=
  fun _ _ hl hb => ⟨hb rfl, fun _ => ⟨id, hl⟩⟩

lemma keepsTo_cancelSafely : KeepsTo P I begun (cancelSafely : Py ℓ Unit) :=
  fun _ _ hl _ _ => ⟨id, hl⟩

lemma KeepsTo.bind {m : Py ℓ α} {f : α → Py ℓ β} (hm : KeepsTo P I begun m)
    (hf : ∀ a, KeepsTo P I begun (f a)) : KeepsTo P I begun (m >>= f) := by
  intro l b hl hb
  apply confined_bind_iff.mpr
  refine (hm l b hl hb).mono (fun _ => id) ?_
  rintro b' ⟨e | a, l'⟩ ⟨hb', hl'⟩
  · exact ⟨hb', hl'⟩
  · refine (hf a l' b' hl' fun h => hb' (hb h)).mono (fun _ => id) ?_
    rintro b'' x ⟨hb'', hx⟩
    exact ⟨fun h => hb'' (hb' h), hx⟩

lemma KeepsTo.tryElse {m : Py ℓ α} {onError : PyErr → Py ℓ β} {onOk : α → Py ℓ β}
    (hm : KeepsTo P I begun m) (he : ∀ e, KeepsTo P I begun (onError e))
    (ho : ∀ a, KeepsTo P I begun (onOk a)) : KeepsTo P I begun (Method.tryElse m onError onOk) := by
  intro l b hl hb
  apply confined_bind_iff.mpr
  refine (hm l b hl hb).mono (fun _ => id) ?_
  rintro b' ⟨e | a, l'⟩ ⟨hb', hl'⟩
  · refine (he e l' b' hl' fun h => hb' (hb h)).mono (fun _ => id) ?_
    rintro b'' x ⟨hb'', hx⟩
    exact ⟨fun h => hb'' (hb' h), hx⟩
  · refine (ho a l' b' hl' fun h => hb' (hb h)).mono (fun _ => id) ?_
    rintro b'' x ⟨hb'', hx⟩
    exact ⟨fun h => hb'' (hb' h), hx⟩

lemma KeepsTo.tryCatch {m : Py ℓ α} {f : PyErr → Py ℓ α} (hm : KeepsTo P I begun m)
    (hf : ∀ e, KeepsTo P I begun (f e)) : KeepsTo P I begun (tryCatch m f) := by
  have helse : KeepsTo P I begun (Method.tryElse m f fun a => (pure a : Py ℓ α)) :=
    KeepsTo.tryElse hm hf keepsTo_pure
  exact helse

/-- What follows a beginning may commit. -/
lemma KeepsTo.begin {f : Unit → Py ℓ β} (hf : KeepsTo P I true (f ())) :
    KeepsTo P I begun (beginTransaction >>= f) := by
  intro l b hl _
  refine ⟨?_, fun e => ⟨id, hl⟩⟩
  refine (hf l true hl fun _ => rfl).mono (fun _ => id) ?_
  rintro b' x ⟨hb', hx⟩
  exact ⟨fun _ => hb' rfl, hx⟩

lemma KeepsTo.get {f : ℓ → Py ℓ β} (hf : ∀ self, I self → KeepsTo P I begun (f self)) :
    KeepsTo P I begun (get >>= f) := fun l b hl hb => hf l hl l b hl hb

/-- After a computation that returns, its result is at hand. -/
lemma KeepsTo.lift {x : Except PyErr α} {f : α → Py ℓ β}
    (hf : ∀ a, x = .ok a → KeepsTo P I begun (f a)) : KeepsTo P I begun (lift x >>= f) := by
  intro l b hl hb
  cases x with
  | error e => exact ⟨id, hl⟩
  | ok a => exact hf a rfl l b hl hb

end rules

/-! ### The methods of a graph store -/

def GraphStore.address (self : GraphStore) : String × String := (self.scope, self.runId)

/-- The store is bound to the run. -/
structure GraphStore.At (env : Env F X) (g : String × String) (store : GraphStore) : Prop where
  address : store.address = g
  record : projectionKey env g = .ok store.projectionRecord

lemma canonicalJson_ok {value : PyValue F X} {text : String}
    (h : canonicalJson env value = .ok text) :
    ∃ j, adapt env value = .ok j ∧ loads env text = .ok j.canon := by
  rw [canonicalJson_eq] at h
  cases hadapt : adapt env value with
  | error e => simp [hadapt, Except.map] at h
  | ok j =>
    obtain rfl : dumps j = text := by simpa [hadapt, Except.map] using h
    exact ⟨j, rfl, loads_dumps (adapt_distinct hadapt)⟩

/-- The content of an object reads as the object with its values adapted. -/
lemma objectFromRow_content (self : GraphStore) (seq : Int) {obj : Object F X}
    {record : ObjectRecord} (h : objectToRecord env obj = .ok record) :
    ∃ data provenance, adapt env obj.data = .ok data ∧ adapt env obj.provenance = .ok provenance ∧
      objectFromRow env (self.objectContent seq record) = .ok (⟨obj.id, obj.type,
        plain data.canon, obj.version, plain provenance.canon⟩ : Object F X) := by
  obtain ⟨dataJson, hdata, h⟩ := bind_eq_ok.mp h
  obtain ⟨provenanceJson, hprovenance, h⟩ := bind_eq_ok.mp h
  obtain rfl := pure_eq_ok.mp h
  obtain ⟨data, hdata, hloads⟩ := canonicalJson_ok hdata
  obtain ⟨provenance, hprovenance, hloads'⟩ := canonicalJson_ok hprovenance
  refine ⟨data, provenance, hdata, hprovenance, ?_⟩
  unfold objectFromRow GraphStore.objectContent
  simp only [required, bind, Except.bind, hloads, hloads']
  rfl

lemma relationFromRow_content (self : GraphStore) (source target : RecordId .agVertex)
    {rel : Relation F X} {record : RelationRecord} (h : relationToRecord env rel = .ok record) :
    ∃ data provenance, adapt env rel.data = .ok data ∧ adapt env rel.provenance = .ok provenance ∧
      GraphStore.relationFromRow env (self.relationContent source target record) =
        .ok (⟨rel.id, rel.source, rel.target, rel.type, plain data.canon,
          plain provenance.canon⟩ : Relation F X) := by
  obtain ⟨dataJson, hdata, h⟩ := bind_eq_ok.mp h
  obtain ⟨provenanceJson, hprovenance, h⟩ := bind_eq_ok.mp h
  obtain rfl := pure_eq_ok.mp h
  obtain ⟨data, hdata, hloads⟩ := canonicalJson_ok hdata
  obtain ⟨provenance, hprovenance, hloads'⟩ := canonicalJson_ok hprovenance
  refine ⟨data, provenance, hdata, hprovenance, ?_⟩
  unfold GraphStore.relationFromRow recordToRelation GraphStore.relationContent
  simp only [bind, Except.bind, hloads, hloads']
  rfl

namespace GraphStore

section methods

variable {g : String × String} {begun : Bool} {self : GraphStore}

lemma keepsTo_ensureOpen {P : Stmt → Prop} {I : GraphStore → Prop} :
    KeepsTo P I begun (ensureOpen : Py GraphStore Unit) :=
  KeepsTo.get fun _ _ => keepsTo_lift _

lemma keepsTo_assertScopedRow {P : Stmt → Prop} {I : GraphStore → Prop} (scope runId : String)
    (logical : Option (String × String)) :
    KeepsTo P I begun (assertScopedRow scope runId logical) :=
  KeepsTo.get fun _ _ => (keepsTo_lift _).bind fun _ => keepsTo_lift _

variable (env g) in
/-- The method stays inside the contents of the run. -/
abbrev Inside {α : Type} (begun : Bool) (m : Py GraphStore α) : Prop :=
  KeepsTo (Stmt.Inside env g) (At env g) begun m

lemma inside_projectionRow : Inside env g begun projectionRow := by
  unfold projectionRow
  apply KeepsTo.get
  intro self hself
  refine (keepsTo_query ⟨⟨hself.record, trivial⟩, trivial⟩).bind ?_
  intro row
  cases row with
  | none => exact keepsTo_pure _
  | some row => exact (keepsTo_assertScopedRow _ _ _).bind fun _ => keepsTo_pure _

lemma inside_projectionStatus : Inside env g begun projectionStatus := by
  unfold projectionStatus
  refine keepsTo_ensureOpen.bind fun _ => inside_projectionRow.bind fun row => ?_
  cases row with
  | none => exact keepsTo_throw _
  | some row => exact keepsTo_pure _

lemma inside_assertReadable : Inside env g begun assertReadable := by
  unfold assertReadable
  refine KeepsTo.get fun self _ => keepsTo_ensureOpen.bind fun _ => ?_
  exact inside_projectionStatus.bind fun _ => keepsTo_lift _

lemma inside_assertWritable : Inside env g begun assertWritable := inside_assertReadable

/-- After the key of an entity is computed, it is at hand. -/
lemma inside_key {α : Type} {table : Table} {ids : List String}
    {f : RecordId table → Py GraphStore α}
    (hf : ∀ record, recordId env.sha256 table (g.1 :: g.2 :: ids) = .ok record →
      Inside env g begun (f record)) :
    Inside env g begun (do
      let record ← (do
        let self ← get
        lift (recordId env.sha256 table (self.scope :: self.runId :: ids)))
      f record) := by
  intro l b hl hb
  have haddress := hl.address
  subst haddress
  have hlift : Inside env l.address begun
      (lift (recordId env.sha256 table (l.scope :: l.runId :: ids)) >>= f) := KeepsTo.lift hf
  exact hlift l b hl hb

lemma inside_vertexRecordId {α : Type} {id : String} {f : RecordId .agVertex → Py GraphStore α}
    (hf : ∀ vertex, vertexKey env g id = .ok vertex → Inside env g begun (f vertex)) :
    Inside env g begun (vertexRecordId env id >>= f) := inside_key hf

lemma inside_relationRecordId {α : Type} {id : String}
    {f : RecordId .agRelation → Py GraphStore α}
    (hf : ∀ relation, relationKey env g id = .ok relation → Inside env g begun (f relation)) :
    Inside env g begun (relationRecordId env id >>= f) := inside_key hf

lemma inside_patchRecordId {α : Type} {id : String} {f : RecordId .agPatch → Py GraphStore α}
    (hf : ∀ patch, patchKey env g id = .ok patch → Inside env g begun (f patch)) :
    Inside env g begun (patchRecordId env id >>= f) := inside_key hf

lemma inside_placeholderContent {α : Type} {id : String} {f : VertexRow → Py GraphStore α}
    (hf : ∀ row, (row.scope, row.runId) = g → row.objectId = id → row.Legible env →
      Inside env g begun (f row)) : Inside env g begun (placeholderContent id >>= f) := by
  intro l b hl hb
  have haddress := hl.address
  subst haddress
  have hlift : Inside env l.address begun (lift (objectSeq id) >>= fun seq =>
      f (l.placeholderRow id seq)) := by
    apply KeepsTo.lift
    intro seq _
    exact hf _ rfl rfl nofun
  have hrun := hlift l b hl hb
  unfold placeholderContent
  cases hseq : objectSeq id with
  | error e =>
    rw [hseq] at hrun
    exact hrun
  | ok seq =>
    rw [hseq] at hrun
    exact hrun

lemma inside_putObject (obj : Object F X) : Inside env g begun (putObject env obj) := by
  unfold putObject
  refine inside_assertWritable.bind fun _ => KeepsTo.get fun self hself => ?_
  refine KeepsTo.lift fun seq _ => KeepsTo.lift fun record hrecord => ?_
  apply inside_vertexRecordId
  intro vertex hvertex
  have hid : record.objectId = obj.id := by
    obtain ⟨dataJson, -, h⟩ := bind_eq_ok.mp hrecord
    obtain ⟨provenanceJson, -, h⟩ := bind_eq_ok.mp h
    obtain rfl := pure_eq_ok.mp h
    rfl
  have hlegible : (self.objectContent seq record).Legible env := by
    obtain ⟨data, provenance, -, -, hrow⟩ := objectFromRow_content self seq hrecord
    exact fun _ => ⟨_, hrow⟩
  refine keepsTo_query ⟨⟨⟨?_, hself.address⟩, hlegible⟩, trivial⟩
  change vertexKey env g record.objectId = _
  rw [hid]
  exact hvertex

lemma inside_getObject (id : String) : Inside env g begun (getObject env id) := by
  unfold getObject
  refine inside_assertReadable.bind fun _ => inside_vertexRecordId fun vertex hvertex => ?_
  refine (keepsTo_query ⟨⟨⟨id, hvertex⟩, trivial⟩, trivial⟩).bind fun row => ?_
  cases row with
  | none => exact keepsTo_pure _
  | some row =>
    simp only
    split
    · exact (keepsTo_assertScopedRow _ _ _).bind fun _ => (keepsTo_lift _).bind fun _ => keepsTo_pure _
    · exact keepsTo_pure _

lemma inside_removeObject (id : String) : Inside env g begun (removeObject env id) := by
  unfold removeObject
  refine inside_assertWritable.bind fun _ => inside_vertexRecordId fun vertex hvertex => ?_
  refine (keepsTo_query ⟨⟨⟨id, hvertex⟩, trivial⟩, trivial⟩).bind fun row => ?_
  cases row with
  | none => exact keepsTo_pure _
  | some row =>
    refine (keepsTo_assertScopedRow _ _ _).bind fun _ => inside_placeholderContent ?_
    intro content haddress hid hlegible
    refine keepsTo_query ⟨⟨⟨?_, haddress⟩, hlegible⟩, trivial⟩
    rw [hid]
    exact hvertex

lemma inside_selectObjects (filter : ObjectFilter) (limit : Option Int) :
    Inside env g begun (selectObjects env filter limit) := by
  unfold selectObjects
  refine KeepsTo.get fun self hself => ?_
  exact (keepsTo_query ⟨⟨hself.address, trivial⟩, trivial⟩).bind fun _ => keepsTo_lift _

lemma inside_selectRelations (filter : RelationFilter) (ordered : Bool) :
    Inside env g begun (selectRelations env filter ordered) := by
  unfold selectRelations
  refine KeepsTo.get fun self hself => ?_
  exact (keepsTo_query ⟨⟨hself.address, trivial⟩, trivial⟩).bind fun _ => keepsTo_lift _

lemma inside_allObjects : Inside env g begun (allObjects env) := by
  unfold allObjects
  exact inside_assertReadable.bind fun _ => inside_selectObjects .any none

lemma inside_ensurePlaceholder {vertex : RecordId .agVertex} {id : String}
    (hvertex : vertexKey env g id = .ok vertex) :
    Inside env g true (ensurePlaceholderInTransaction vertex id) := by
  unfold ensurePlaceholderInTransaction
  refine (keepsTo_txQuery ⟨⟨⟨id, hvertex⟩, trivial⟩, trivial⟩).bind fun row => ?_
  cases row with
  | none =>
    apply inside_placeholderContent
    intro content haddress hid hlegible
    refine keepsTo_txQuery ⟨⟨⟨?_, haddress⟩, hlegible⟩, trivial⟩
    rw [hid]
    exact hvertex
  | some row => exact keepsTo_assertScopedRow _ _ _

lemma inside_relationTransaction {rel : Relation F X} {source target : RecordId .agVertex}
    {relation : RecordId .agRelation} (hsource : vertexKey env g rel.source = .ok source)
    (htarget : vertexKey env g rel.target = .ok target)
    (hrelation : relationKey env g rel.id = .ok relation) :
    Inside env g true (relationTransaction env rel source target relation) := by
  unfold relationTransaction
  refine KeepsTo.get fun self hself => ?_
  refine (inside_ensurePlaceholder hsource).bind fun _ => ?_
  refine (inside_ensurePlaceholder htarget).bind fun _ => ?_
  refine (keepsTo_txQuery ⟨⟨⟨_, hrelation⟩, trivial⟩, trivial⟩).bind fun _ => ?_
  refine KeepsTo.lift fun record hrecord => ?_
  obtain ⟨data, provenance, -, -, hrow⟩ := relationFromRow_content self source target hrecord
  have hfields : record.relationId = rel.id ∧ record.source = rel.source ∧
      record.target = rel.target := by
    obtain ⟨dataJson, -, h⟩ := bind_eq_ok.mp hrecord
    obtain ⟨provenanceJson, -, h⟩ := bind_eq_ok.mp h
    obtain rfl := pure_eq_ok.mp h
    exact ⟨rfl, rfl, rfl⟩
  obtain ⟨hid, hsourceId, htargetId⟩ := hfields
  have hjoined : (self.relationContent source target record).Joined env := by
    have haddress := hself.address
    subst haddress
    refine ⟨?_, ?_⟩
    · change vertexKey env self.address record.source = .ok source
      rw [hsourceId]
      exact hsource
    · change vertexKey env self.address record.target = .ok target
      rw [htargetId]
      exact htarget
  refine (keepsTo_txQuery ⟨⟨⟨?_, hself.address, hjoined⟩, ⟨_, hrow⟩⟩, trivial⟩).bind fun _ =>
    keepsTo_commit
  change relationKey env g record.relationId = _
  rw [hid]
  exact hrelation

lemma inside_putRelation (rel : Relation F X) : Inside env g begun (putRelation env rel) := by
  unfold putRelation
  refine inside_assertWritable.bind fun _ => inside_vertexRecordId fun source hsource => ?_
  refine inside_vertexRecordId fun target htarget => ?_
  refine inside_relationRecordId fun relation hrelation => KeepsTo.begin ?_
  refine KeepsTo.tryCatch (inside_relationTransaction hsource htarget hrelation) fun e => ?_
  exact keepsTo_cancelSafely.bind fun _ => keepsTo_throw e

lemma inside_getRelation (id : String) : Inside env g begun (getRelation env id) := by
  unfold getRelation
  refine inside_assertReadable.bind fun _ => inside_relationRecordId fun relation hrelation => ?_
  refine (keepsTo_query ⟨⟨⟨id, hrelation⟩, trivial⟩, trivial⟩).bind fun row => ?_
  cases row with
  | none => exact keepsTo_pure _
  | some row =>
    exact (keepsTo_assertScopedRow _ _ _).bind fun _ => (keepsTo_lift _).bind fun _ => keepsTo_pure _

lemma inside_removeRelation (id : String) : Inside env g begun (removeRelation env id) := by
  unfold removeRelation
  refine inside_assertWritable.bind fun _ => inside_relationRecordId fun relation hrelation => ?_
  exact keepsTo_query ⟨⟨⟨id, hrelation⟩, trivial⟩, trivial⟩

lemma inside_allRelations : Inside env g begun (allRelations env) := by
  unfold allRelations
  exact inside_assertReadable.bind fun _ => inside_selectRelations _ _

lemma inside_queryObjects (plan : ObjectQuery F X) : Inside env g begun (queryObjects env plan) := by
  unfold queryObjects objectExists
  refine inside_assertReadable.bind fun _ => ?_
  simp only
  split
  · refine KeepsTo.bind (KeepsTo.get fun self hself => ?_) fun _ => keepsTo_pure _
    exact (keepsTo_query ⟨⟨hself.address, trivial⟩, trivial⟩).bind fun _ => keepsTo_pure _
  · exact (inside_selectObjects _ _).bind fun _ => keepsTo_pure _

lemma inside_findObjects (objectType : Option String) :
    Inside env g begun (findObjects env objectType) := by
  unfold findObjects
  exact inside_assertReadable.bind fun _ => inside_selectObjects _ _

lemma inside_findObjectsInTypes (types : List String) :
    Inside env g begun (findObjectsInTypes env types) := by
  unfold findObjectsInTypes
  cases types with
  | nil => exact keepsTo_pure _
  | cons type types => exact inside_assertReadable.bind fun _ => inside_selectObjects _ _

lemma inside_findRelations (source target relationType : Option String) :
    Inside env g begun (findRelations env source target relationType) := by
  unfold findRelations
  exact inside_assertReadable.bind fun _ => inside_selectRelations _ _

lemma inside_walk (depth : Nat) (w : Walk) : Inside env g begun (walk depth w) := by
  induction depth generalizing w with
  | zero => exact keepsTo_pure w
  | succ depth ih =>
    unfold walk
    split
    · exact keepsTo_pure w
    · refine KeepsTo.get fun self hself => ?_
      exact (keepsTo_query ⟨⟨hself.address, trivial⟩, trivial⟩).bind fun rows => ih _

lemma inside_neighborhood (id : String) (depth : Int) :
    Inside env g begun (neighborhood env id depth) := by
  have hobjects : ∀ ids, Inside env g begun (objectsByLogicalIds env ids) := by
    intro ids
    cases ids with
    | nil => exact keepsTo_pure _
    | cons id ids => exact inside_selectObjects _ _
  have hrelations : ∀ ids, Inside env g begun (relationsByLogicalIds env ids) := by
    intro ids
    cases ids with
    | nil => exact keepsTo_pure _
    | cons id ids => exact inside_selectRelations _ _
  unfold neighborhood
  refine inside_assertReadable.bind fun _ => (inside_getObject id).bind fun found => ?_
  cases found with
  | none => exact keepsTo_pure _
  | some obj =>
    refine (inside_walk _ _).bind fun w => (hobjects _).bind fun _ => ?_
    exact (hrelations _).bind fun _ => keepsTo_pure _

lemma inside_putPatch (patch : Patch F X) : Inside env g begun (putPatch env patch) := by
  unfold putPatch
  refine inside_assertWritable.bind fun _ => KeepsTo.get fun self hself => ?_
  refine inside_patchRecordId fun record hrecord => KeepsTo.lift fun content hcontent => ?_
  have hid : content.patchId = patch.id := by
    obtain ⟨_, -, h⟩ := bind_eq_ok.mp hcontent
    obtain ⟨_, -, h⟩ := bind_eq_ok.mp h
    obtain ⟨_, -, h⟩ := bind_eq_ok.mp h
    obtain rfl := pure_eq_ok.mp h
    rfl
  refine keepsTo_query ⟨⟨⟨?_, hself.address⟩, trivial⟩, trivial⟩
  change patchKey env g content.patchId = _
  rw [hid]
  exact hrecord

lemma inside_getPatch (id : String) : Inside env g begun (getPatch env id) := by
  unfold getPatch
  refine inside_assertReadable.bind fun _ => inside_patchRecordId fun record hrecord => ?_
  refine (keepsTo_query ⟨⟨⟨id, hrecord⟩, trivial⟩, trivial⟩).bind fun row => ?_
  cases row with
  | none => exact keepsTo_pure _
  | some row =>
    exact (keepsTo_assertScopedRow _ _ _).bind fun _ => (keepsTo_lift _).bind fun _ => keepsTo_pure _

lemma inside_allPatches : Inside env g begun (allPatches env) := by
  unfold allPatches
  refine inside_assertReadable.bind fun _ => KeepsTo.get fun self hself => ?_
  exact (keepsTo_query ⟨⟨hself.address, trivial⟩, trivial⟩).bind fun _ => keepsTo_lift _

lemma inside_removePatch (id : String) : Inside env g begun (removePatch env id) := by
  unfold removePatch
  refine inside_assertWritable.bind fun _ => inside_patchRecordId fun record hrecord => ?_
  exact keepsTo_query ⟨⟨⟨id, hrecord⟩, trivial⟩, trivial⟩

lemma inside_clear : Inside env g begun clear := by
  unfold clear
  refine KeepsTo.get fun self hself => keepsTo_ensureOpen.bind fun _ => ?_
  refine (keepsTo_query ⟨⟨hself.address, trivial⟩, trivial⟩).bind fun _ => ?_
  refine (keepsTo_query ⟨⟨hself.address, trivial⟩, trivial⟩).bind fun _ => ?_
  exact keepsTo_query ⟨⟨hself.address, trivial⟩, trivial⟩

end methods

end GraphStore

variable {begun : Bool}

/-- Whatever a graph asks of its store stays inside the contents of the run. -/
theorem inside_code (c : GraphCall F X) : GraphStore.Inside env g begun (c.code env) := by
  cases c with
  | putObject obj => exact GraphStore.inside_putObject obj
  | getObject objectId => exact GraphStore.inside_getObject objectId
  | removeObject objectId => exact GraphStore.inside_removeObject objectId
  | allObjects => exact GraphStore.inside_allObjects
  | putRelation rel => exact GraphStore.inside_putRelation rel
  | getRelation relationId => exact GraphStore.inside_getRelation relationId
  | removeRelation relationId => exact GraphStore.inside_removeRelation relationId
  | allRelations => exact GraphStore.inside_allRelations
  | queryObjects plan => exact GraphStore.inside_queryObjects plan
  | findObjects objectType => exact GraphStore.inside_findObjects objectType
  | findObjectsInTypes types => exact GraphStore.inside_findObjectsInTypes types
  | findRelations source target relationType =>
    exact GraphStore.inside_findRelations source target relationType
  | neighborhood objectId depth => exact GraphStore.inside_neighborhood objectId depth
  | putPatch patch => exact GraphStore.inside_putPatch patch
  | getPatch patchId => exact GraphStore.inside_getPatch patchId
  | allPatches => exact GraphStore.inside_allPatches
  | removePatch patchId => exact GraphStore.inside_removePatch patchId
  | clear => exact GraphStore.inside_clear

end ActiveGraphSurreal
