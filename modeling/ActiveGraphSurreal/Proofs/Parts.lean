import ActiveGraphSurreal.Proofs.Ledger

/-!
# The part of a run

Every row of a run sits under a key made of its scope, its run and its logical id. A
statement of a store addresses rows by their keys or by scope and run; on tables whose rows
are in their places both reach the part of its own run and no other row.
-/

namespace ActiveGraphSurreal

open Library

set_option linter.unusedSectionVars false

/-! ### Rows in their places -/

section keys

variable {F X : Type} (env : Env F X) (g : String × String)

def projectionKey : Except PyErr (RecordId .agProjection) :=
  recordId env.sha256 .agProjection [g.1, g.2]

def vertexKey (id : String) : Except PyErr (RecordId .agVertex) :=
  recordId env.sha256 .agVertex [g.1, g.2, id]

def relationKey (id : String) : Except PyErr (RecordId .agRelation) :=
  recordId env.sha256 .agRelation [g.1, g.2, id]

def patchKey (id : String) : Except PyErr (RecordId .agPatch) :=
  recordId env.sha256 .agPatch [g.1, g.2, id]

end keys

variable {F X : Type} [Json.ScalarText F] (env : Env F X)

/-- A relation row holds the keys of the vertices that it names. -/
structure RelationRow.Joined (row : RelationRow) : Prop where
  source : vertexKey env (row.scope, row.runId) row.source = .ok ⟨row.inKey⟩
  target : vertexKey env (row.scope, row.runId) row.target = .ok ⟨row.outKey⟩

/-- Every row sits under the key of its own fields. -/
structure Placed (t : Tables) : Prop where
  run : ∀ key row, t.run.lookup key = some row → runKey env (row.scope, row.runId) = .ok ⟨key⟩
  event : ∀ key row, t.event.lookup key = some row →
    eventKey env (row.scope, row.runId) row.eventId = .ok ⟨key⟩
  projection : ∀ key row, t.projection.lookup key = some row →
    projectionKey env (row.scope, row.runId) = .ok ⟨key⟩
  vertex : ∀ key row, t.vertex.lookup key = some row →
    vertexKey env (row.scope, row.runId) row.objectId = .ok ⟨key⟩
  relation : ∀ key row, t.relation.lookup key = some row →
    relationKey env (row.scope, row.runId) row.relationId = .ok ⟨key⟩
  joined : ∀ key row, t.relation.lookup key = some row → row.Joined env
  patch : ∀ key row, t.patch.lookup key = some row →
    patchKey env (row.scope, row.runId) row.patchId = .ok ⟨key⟩

lemma placed_empty : Placed env Tables.empty := by
  constructor <;> intro key row h <;> cases h

abbrev Entries (R : Type) := List (Sigma fun _ : String => R)

/-- The rows of a run, with their keys. -/
structure Part where
  run : Entries RunRow
  event : Entries EventRow
  projection : Entries ProjectionRow
  vertex : Entries VertexRow
  relation : Entries RelationRow
  patch : Entries PatchRow

def Tables.part (t : Tables) (g : String × String) : Part where
  run := Records.owned (fun row => row.scope = g.1 && row.runId = g.2) t.run
  event := Records.owned (fun row => row.scope = g.1 && row.runId = g.2) t.event
  projection := Records.owned (fun row => row.scope = g.1 && row.runId = g.2) t.projection
  vertex := Records.owned (fun row => row.scope = g.1 && row.runId = g.2) t.vertex
  relation := Records.owned (fun row => row.scope = g.1 && row.runId = g.2) t.relation
  patch := Records.owned (fun row => row.scope = g.1 && row.runId = g.2) t.patch

/-- A write to the part of a run that leaves every row in its place. -/
def Write.Within (g : String × String) : Write → Prop
  | .run key row => runKey env g = .ok ⟨key⟩ ∧
      ∀ r, row = some r → (r.scope, r.runId) = g
  | .event key row => ∃ id, eventKey env g id = .ok ⟨key⟩ ∧
      ∀ r, row = some r → (r.scope, r.runId) = g ∧ r.eventId = id
  | .projection key row => projectionKey env g = .ok ⟨key⟩ ∧
      ∀ r, row = some r → (r.scope, r.runId) = g
  | .vertex key row => ∃ id, vertexKey env g id = .ok ⟨key⟩ ∧
      ∀ r, row = some r → (r.scope, r.runId) = g ∧ r.objectId = id
  | .relation key row => ∃ id, relationKey env g id = .ok ⟨key⟩ ∧
      ∀ r, row = some r → (r.scope, r.runId) = g ∧ r.relationId = id ∧ r.Joined env
  | .patch key row => ∃ id, patchKey env g id = .ok ⟨key⟩ ∧
      ∀ r, row = some r → (r.scope, r.runId) = g ∧ r.patchId = id
  | .define _ | .schema _ => False

/-- A statement of a store of the run. -/
def Stmt.Of (g : String × String) : Stmt → Prop
  | .selectRun record | .mergeHead record _ _ | .mergeRun record _ => runKey env g = .ok record
  | .createRun record content => runKey env g = .ok record ∧ (content.scope, content.runId) = g
  | .selectEvent record => ∃ id, eventKey env g id = .ok record
  | .createEvent record content =>
    eventKey env g content.eventId = .ok record ∧ (content.scope, content.runId) = g
  | .selectProjection record => projectionKey env g = .ok record
  | .createProjection record content | .upsertProjection record content =>
    projectionKey env g = .ok record ∧ (content.scope, content.runId) = g
  | .selectVertex record => ∃ id, vertexKey env g id = .ok record
  | .createVertex record content | .upsertVertex record content =>
    vertexKey env g content.objectId = .ok record ∧ (content.scope, content.runId) = g
  | .selectRelation record | .deleteRelation record => ∃ id, relationKey env g id = .ok record
  | .insertRelation record content => relationKey env g content.relationId = .ok record ∧
    (content.scope, content.runId) = g ∧ content.Joined env
  | .selectPatch record | .deletePatch record => ∃ id, patchKey env g id = .ok record
  | .upsertPatch record content =>
    patchKey env g content.patchId = .ok record ∧ (content.scope, content.runId) = g
  | .selectEvents scope runId | .countEvents scope runId | .deleteEventsAfter scope runId _
  | .selectObjects scope runId _ _ _ | .selectRelations scope runId _ _
  | .selectPatches scope runId | .deleteRelations scope runId | .deletePatches scope runId
  | .deleteVertices scope runId => (scope, runId) = g
  | .connect | .selectSchema | .define _ | .createSchema _ | .updateSchemaVersion _
  | .timeNow => False

variable {env}

/-! ### Writes keep the places -/

section writes

variable {g g' : String × String} {t t' : Tables} {w : Write}

lemma lookup_writeWith {R : Type} {P : String → R → Prop} {t : Records R} {key : String}
    {row : Option R} (h : ∀ k r, t.lookup k = some r → P k r) (hrow : ∀ r, row = some r → P key r) :
    ∀ k r, (t.write key row).lookup k = some r → P k r := by
  intro k r hk
  rw [Records.lookup_write] at hk
  by_cases hkey : k = key
  · rw [if_pos hkey] at hk
    rw [hkey]
    exact hrow r hk
  · rw [if_neg hkey] at hk
    exact h k r hk

lemma placed_apply (h : Placed env t) (hw : w.Within env g) : Placed env (w.apply t) := by
  cases w with
  | run key row =>
    obtain ⟨hkey, hrow⟩ := hw
    refine { h with run := lookup_writeWith h.run ?_ }
    intro r hr
    rw [hrow r hr]
    exact hkey
  | event key row =>
    obtain ⟨id, hkey, hrow⟩ := hw
    refine { h with event := lookup_writeWith h.event ?_ }
    intro r hr
    obtain ⟨hg, rfl⟩ := hrow r hr
    rw [hg]
    exact hkey
  | projection key row =>
    obtain ⟨hkey, hrow⟩ := hw
    refine { h with projection := lookup_writeWith h.projection ?_ }
    intro r hr
    rw [hrow r hr]
    exact hkey
  | vertex key row =>
    obtain ⟨id, hkey, hrow⟩ := hw
    refine { h with vertex := lookup_writeWith h.vertex ?_ }
    intro r hr
    obtain ⟨hg, rfl⟩ := hrow r hr
    rw [hg]
    exact hkey
  | relation key row =>
    obtain ⟨id, hkey, hrow⟩ := hw
    refine { h with
      relation := lookup_writeWith h.relation ?_
      joined := lookup_writeWith h.joined ?_ }
    · intro r hr
      obtain ⟨hg, rfl, -⟩ := hrow r hr
      rw [hg]
      exact hkey
    · intro r hr
      exact (hrow r hr).2.2
  | patch key row =>
    obtain ⟨id, hkey, hrow⟩ := hw
    refine { h with patch := lookup_writeWith h.patch ?_ }
    intro r hr
    obtain ⟨hg, rfl⟩ := hrow r hr
    rw [hg]
    exact hkey
  | define table => exact hw.elim
  | schema row => exact hw.elim

lemma key_address (hsha : CollisionFree env) {table : Table} {parts parts' : List String}
    {record : RecordId table} (h : recordId env.sha256 table (g.1 :: g.2 :: parts) = .ok record)
    (h' : recordId env.sha256 table (g'.1 :: g'.2 :: parts') = .ok record) :
    g = g' ∧ parts = parts' := by
  have heq := recordId_inj hsha h h'
  simp only [List.cons.injEq] at heq
  exact ⟨Prod.ext heq.1 heq.2.1, heq.2.2⟩

lemma owner_of_key (hsha : CollisionFree env) {scope runId : String} {table : Table}
    {parts parts' : List String} {record : RecordId table}
    (h : recordId env.sha256 table (scope :: runId :: parts) = .ok record)
    (h' : recordId env.sha256 table (g.1 :: g.2 :: parts') = .ok record) :
    scope = g.1 ∧ runId = g.2 := by
  have heq := (key_address hsha (g := (scope, runId)) h h').1
  exact ⟨congrArg Prod.fst heq, congrArg Prod.snd heq⟩

lemma not_owner {scope runId : String} (hg : g ≠ g') (h : (scope, runId) = g') :
    ¬ (decide (scope = g.1) && decide (runId = g.2)) = true := by
  intro howner
  simp only [Bool.and_eq_true, decide_eq_true_eq] at howner
  exact hg ((Prod.ext howner.1 howner.2 : (scope, runId) = g).symm.trans h)

/-- A write to one part leaves every other part as it is. -/
lemma part_apply_other (hsha : CollisionFree env) (h : Placed env t) (hw : w.Within env g')
    (hg : g ≠ g') : (w.apply t).part g = t.part g := by
  have hold : ∀ {scope runId : String} {table : Table} {parts parts' : List String}
      {record : RecordId table}, recordId env.sha256 table (scope :: runId :: parts) = .ok record →
      recordId env.sha256 table (g'.1 :: g'.2 :: parts') = .ok record →
      ¬ (decide (scope = g.1) && decide (runId = g.2)) = true := by
    intro scope runId table parts parts' record hkey hkey'
    obtain ⟨hscope, hrun⟩ := owner_of_key hsha hkey hkey'
    exact not_owner hg (Prod.ext hscope hrun)
  cases w with
  | run key row =>
    obtain ⟨hkey, hrow⟩ := hw
    have hsame := Records.owned_write_other
      (p := fun row : RunRow => row.scope = g.1 && row.runId = g.2)
      (fun r hr => hold (h.run key r hr) hkey) (fun r hr => not_owner hg (hrow r hr))
    exact congrArg (fun part => { t.part g with run := part }) hsame
  | event key row =>
    obtain ⟨id, hkey, hrow⟩ := hw
    have hsame := Records.owned_write_other
      (p := fun row : EventRow => row.scope = g.1 && row.runId = g.2)
      (fun r hr => hold (h.event key r hr) hkey) (fun r hr => not_owner hg (hrow r hr).1)
    exact congrArg (fun part => { t.part g with event := part }) hsame
  | projection key row =>
    obtain ⟨hkey, hrow⟩ := hw
    have hsame := Records.owned_write_other
      (p := fun row : ProjectionRow => row.scope = g.1 && row.runId = g.2)
      (fun r hr => hold (h.projection key r hr) hkey) (fun r hr => not_owner hg (hrow r hr))
    exact congrArg (fun part => { t.part g with projection := part }) hsame
  | vertex key row =>
    obtain ⟨id, hkey, hrow⟩ := hw
    have hsame := Records.owned_write_other
      (p := fun row : VertexRow => row.scope = g.1 && row.runId = g.2)
      (fun r hr => hold (h.vertex key r hr) hkey) (fun r hr => not_owner hg (hrow r hr).1)
    exact congrArg (fun part => { t.part g with vertex := part }) hsame
  | relation key row =>
    obtain ⟨id, hkey, hrow⟩ := hw
    have hsame := Records.owned_write_other
      (p := fun row : RelationRow => row.scope = g.1 && row.runId = g.2)
      (fun r hr => hold (h.relation key r hr) hkey) (fun r hr => not_owner hg (hrow r hr).1)
    exact congrArg (fun part => { t.part g with relation := part }) hsame
  | patch key row =>
    obtain ⟨id, hkey, hrow⟩ := hw
    have hsame := Records.owned_write_other
      (p := fun row : PatchRow => row.scope = g.1 && row.runId = g.2)
      (fun r hr => hold (h.patch key r hr) hkey) (fun r hr => not_owner hg (hrow r hr).1)
    exact congrArg (fun part => { t.part g with patch := part }) hsame
  | define table => exact hw.elim
  | schema row => exact hw.elim

/-- The part after a write depends on the part before it only. -/
lemma part_apply_congr (h : t.part g = t'.part g) : (w.apply t).part g = (w.apply t').part g := by
  obtain ⟨hrun, hevent, hprojection, hvertex, hrelation, hpatch⟩ := Part.mk.inj h
  cases w with
  | run key row =>
    unfold Write.apply Tables.part
    simp only [Records.owned_write, hrun, hevent, hprojection, hvertex, hrelation, hpatch]
  | event key row =>
    unfold Write.apply Tables.part
    simp only [Records.owned_write, hrun, hevent, hprojection, hvertex, hrelation, hpatch]
  | projection key row =>
    unfold Write.apply Tables.part
    simp only [Records.owned_write, hrun, hevent, hprojection, hvertex, hrelation, hpatch]
  | vertex key row =>
    unfold Write.apply Tables.part
    simp only [Records.owned_write, hrun, hevent, hprojection, hvertex, hrelation, hpatch]
  | relation key row =>
    unfold Write.apply Tables.part
    simp only [Records.owned_write, hrun, hevent, hprojection, hvertex, hrelation, hpatch]
  | patch key row =>
    unfold Write.apply Tables.part
    simp only [Records.owned_write, hrun, hevent, hprojection, hvertex, hrelation, hpatch]
  | define table => exact h
  | schema row => exact h

variable {sdk : Sdk} {ws : List Write}

lemma placed_applyAll (h : Placed env t) (hws : ∀ w ∈ ws, w.Within env g) :
    Placed env ((engine sdk).applyAll ws t) := by
  induction ws generalizing t with
  | nil => exact h
  | cons w ws ih =>
    have hw : w.Within env g := hws w (by simp)
    exact ih (placed_apply h hw) fun w' h' => hws w' (by simp [h'])

end writes

/-! ### What a statement reads -/

section reads

variable {g : String × String} {t t' : Tables}

lemma isOwner {scope runId : String} (h : (scope, runId) = g) :
    (decide (scope = g.1) && decide (runId = g.2)) = true := by
  subst h
  simp

/-- A lookup under a key of the run stays in its part. -/
lemma lookup_part (hsha : CollisionFree env) {R : Type} {table : Table} {scope runId : R → String}
    {f : R → List String} {t : Records R} {parts : List String} {record : RecordId table}
    (hplaced : ∀ key row, t.lookup key = some row →
      recordId env.sha256 table (scope row :: runId row :: f row) = .ok ⟨key⟩)
    (hkey : recordId env.sha256 table (g.1 :: g.2 :: parts) = .ok record) :
    t.lookup record.key = (Records.owned (fun row => scope row = g.1 && runId row = g.2)
      t).dlookup record.key := by
  apply Records.lookup_eq_owned
  intro row hrow
  obtain ⟨hscope, hrun⟩ := owner_of_key hsha (hplaced record.key row hrow) hkey
  simp [hscope, hrun]

lemma lookup_run (hsha : CollisionFree env) (h : Placed env t) {record : RecordId .agRun}
    (hkey : runKey env g = .ok record) :
    t.run.lookup record.key = (t.part g).run.dlookup record.key :=
  lookup_part (f := fun _ => []) hsha h.run hkey

lemma lookup_event (hsha : CollisionFree env) (h : Placed env t) {id : String}
    {record : RecordId .agEvent} (hkey : eventKey env g id = .ok record) :
    t.event.lookup record.key = (t.part g).event.dlookup record.key :=
  lookup_part hsha h.event hkey

lemma lookup_projection (hsha : CollisionFree env) (h : Placed env t)
    {record : RecordId .agProjection} (hkey : projectionKey env g = .ok record) :
    t.projection.lookup record.key = (t.part g).projection.dlookup record.key :=
  lookup_part (f := fun _ => []) hsha h.projection hkey

lemma lookup_vertex (hsha : CollisionFree env) (h : Placed env t) {id : String}
    {record : RecordId .agVertex} (hkey : vertexKey env g id = .ok record) :
    t.vertex.lookup record.key = (t.part g).vertex.dlookup record.key :=
  lookup_part hsha h.vertex hkey

lemma lookup_relation (hsha : CollisionFree env) (h : Placed env t) {id : String}
    {record : RecordId .agRelation} (hkey : relationKey env g id = .ok record) :
    t.relation.lookup record.key = (t.part g).relation.dlookup record.key :=
  lookup_part hsha h.relation hkey

lemma lookup_patch (hsha : CollisionFree env) (h : Placed env t) {id : String}
    {record : RecordId .agPatch} (hkey : patchKey env g id = .ok record) :
    t.patch.lookup record.key = (t.part g).patch.dlookup record.key :=
  lookup_part hsha h.patch hkey

variable (t g) in
lemma eventRows_part : t.eventRows g.1 g.2 =
    ((t.part g).event.map Sigma.snd).insertionSort fun a b => a.seq ≤ b.seq := by
  unfold Tables.eventRows
  rw [Records.rows_filter_eq_owned]
  rfl

variable (t g) in
lemma objectRows_part : t.objectRows g.1 g.2 =
    ((t.part g).vertex.map Sigma.snd).filter fun row => row.objectPresent := by
  unfold Tables.objectRows Tables.part
  simp only
  rw [← Records.rows_filter_eq_owned, List.filter_filter]
  apply List.filter_congr
  intro row _
  rw [Bool.and_comm]

variable (t g) in
lemma relationRows_part : t.relationRows g.1 g.2 = (t.part g).relation.map Sigma.snd :=
  Records.rows_filter_eq_owned

variable (t g) in
lemma patchRows_part : t.patchRows g.1 g.2 = (t.part g).patch.map Sigma.snd :=
  Records.rows_filter_eq_owned

variable {sdk : Sdk}

lemma create_congr {R : Type} {table : Table} {index : String} {r r' : Records R} {key : String}
    {same : R → Bool} {w : Write} (hlookup : r.lookup key = r'.lookup key)
    (helse : r.anyElse key same = r'.anyElse key same) :
    create sdk table index r key same w = create sdk table index r' key same w := by
  unfold create
  rw [hlookup, helse]

lemma upsert_congr {R : Type} {index : String} {r r' : Records R} {key : String}
    {same : R → Bool} {w : Write} (helse : r.anyElse key same = r'.anyElse key same) :
    upsert sdk index r key same w = upsert sdk index r' key same w := by
  unfold upsert
  rw [helse]

/-- A clash with a row of the run is a clash within its part. -/
lemma anyElse_part {R : Type} {scope runId : R → String} {r : Records R} {key : String}
    {same : R → Bool} (hsame : ∀ row, same row → (scope row, runId row) = g) :
    r.anyElse key same = (Records.owned (fun row => scope row = g.1 && runId row = g.2) r).any
      fun e => e.1 ≠ key && same e.2 :=
  Records.anyElse_eq_owned fun row hrow => isOwner (hsame row hrow)

lemma update_congr {r r' : Records RunRow} {key : String} {f : RunRow → RunRow}
    (h : r.lookup key = r'.lookup key) : update r key f = update r' key f := by
  unfold update
  rw [h]

/-- Only edges of the run end at its vertices. -/
lemma deleteVertices_part (hsha : CollisionFree env) (h : Placed env t) :
    deleteVertices t g.1 g.2 =
      (((t.part g).relation.filter fun e =>
          e.2.inKey ∈ (t.part g).vertex.map Sigma.fst ||
          e.2.outKey ∈ (t.part g).vertex.map Sigma.fst).map Sigma.fst).map (.relation · none) ++
        ((t.part g).vertex.map Sigma.fst).map (.vertex · none) := by
  unfold deleteVertices
  have hkeys : t.vertex.keysWhere (fun row => row.scope = g.1 && row.runId = g.2) =
      (t.part g).vertex.map Sigma.fst := rfl
  simp only [hkeys]
  congr 2
  unfold Records.keysWhere
  congr 1
  change _ = List.filter _ (List.filter _ t.relation.entries)
  rw [List.filter_filter]
  apply List.filter_congr
  intro e he
  have hrow : t.relation.lookup e.1 = some e.2 := AList.mem_lookup_iff.mpr he
  have hends : ∀ key, (key = e.2.inKey ∨ key = e.2.outKey) →
      key ∈ (t.part g).vertex.map Sigma.fst → (e.2.scope, e.2.runId) = g := by
    intro key hend hkey
    obtain ⟨x, hx, rfl⟩ := List.mem_map.mp hkey
    have hx' : x ∈ Records.owned (fun row : VertexRow => row.scope = g.1 && row.runId = g.2)
        t.vertex := hx
    obtain ⟨hlookup, hown⟩ := Records.mem_owned.mp hx'
    simp only [Bool.and_eq_true, decide_eq_true_eq] at hown
    have hplace := h.vertex x.1 x.2 hlookup
    rw [hown.1, hown.2] at hplace
    rcases hend with hend | hend
    · have hjoined := (h.joined e.1 e.2 hrow).source
      rw [← hend] at hjoined
      exact (key_address hsha (g := (e.2.scope, e.2.runId)) hjoined hplace).1
    · have hjoined := (h.joined e.1 e.2 hrow).target
      rw [← hend] at hjoined
      exact (key_address hsha (g := (e.2.scope, e.2.runId)) hjoined hplace).1
  by_cases hin : e.2.inKey ∈ (t.part g).vertex.map Sigma.fst
  · simp only [hin, decide_true, Bool.true_or, Bool.true_and]
    exact (isOwner (hends _ (.inl rfl) hin)).symm
  · by_cases hout : e.2.outKey ∈ (t.part g).vertex.map Sigma.fst
    · simp only [hout, decide_true, Bool.or_true, Bool.true_and]
      exact (isOwner (hends _ (.inr rfl) hout)).symm
    · simp [hin, hout]

/-- A statement of a run depends on the part of the run only. -/
theorem exec_agree (hsha : CollisionFree env) (h : Placed env t) (h' : Placed env t')
    (hpart : t.part g = t'.part g) {st : Stmt} (hst : st.Of env g) :
    st.exec sdk t = st.exec sdk t' := by
  obtain ⟨hrun, hevent, hprojection, hvertex, hrelation, hpatch⟩ := Part.mk.inj hpart
  cases st with
  | connect => exact hst.elim
  | selectSchema => exact hst.elim
  | define ddl => exact hst.elim
  | createSchema row => exact hst.elim
  | updateSchemaVersion version => exact hst.elim
  | timeNow => exact hst.elim
  | selectRun record =>
    have hlookup : t.run.lookup record.key = t'.run.lookup record.key := by
      rw [lookup_run hsha h hst, lookup_run hsha h' hst, hpart]
    exact congrArg (fun row => Except.ok (row, [])) hlookup
  | createRun record content =>
    refine create_congr ?_ ?_
    · rw [lookup_run hsha h hst.1, lookup_run hsha h' hst.1, hpart]
    · have hclash : ∀ row, runClash content row → (row.scope, row.runId) = g := by
        intro row hrow
        unfold runClash at hrow
        simp only [Bool.and_eq_true, decide_eq_true_eq] at hrow
        rw [hrow.1, hrow.2]
        exact hst.2
      rw [anyElse_part hclash, anyElse_part hclash]
      exact congrArg (fun part : Entries RunRow => part.any fun e =>
        e.1 ≠ record.key && runClash content e.2) hrun
  | mergeHead record nextSeq headHash =>
    refine congrArg Except.ok (update_congr ?_)
    rw [lookup_run hsha h hst, lookup_run hsha h' hst, hpart]
  | mergeRun record patch =>
    refine congrArg Except.ok (update_congr ?_)
    rw [lookup_run hsha h hst, lookup_run hsha h' hst, hpart]
  | selectEvent record =>
    obtain ⟨id, hkey⟩ := hst
    have hlookup : t.event.lookup record.key = t'.event.lookup record.key := by
      rw [lookup_event hsha h hkey, lookup_event hsha h' hkey, hpart]
    exact congrArg (fun row => Except.ok (row, [])) hlookup
  | selectEvents scope runId =>
    obtain rfl : (scope, runId) = g := hst
    have hrows : t.eventRows scope runId = t'.eventRows scope runId := by
      rw [eventRows_part (scope, runId) t, eventRows_part (scope, runId) t', hpart]
    exact congrArg (fun rows => Except.ok (rows, [])) hrows
  | countEvents scope runId =>
    obtain rfl : (scope, runId) = g := hst
    have hrows : t.eventRows scope runId = t'.eventRows scope runId := by
      rw [eventRows_part (scope, runId) t, eventRows_part (scope, runId) t', hpart]
    simp only [Stmt.exec, hrows]
  | createEvent record content =>
    refine create_congr ?_ ?_
    · rw [lookup_event hsha h hst.1, lookup_event hsha h' hst.1, hpart]
    · have hclash : ∀ row, eventClash content row → (row.scope, row.runId) = g := by
        intro row hrow
        unfold eventClash at hrow
        simp only [Bool.and_eq_true, decide_eq_true_eq] at hrow
        rw [hrow.1.1, hrow.1.2]
        exact hst.2
      rw [anyElse_part hclash, anyElse_part hclash]
      exact congrArg (fun part : Entries EventRow => part.any fun e =>
        e.1 ≠ record.key && eventClash content e.2) hevent
  | deleteEventsAfter scope runId cutoffSeq =>
    obtain rfl : (scope, runId) = g := hst
    have hkeys : ∀ t : Tables, t.event.keysWhere (fun row =>
        row.scope = scope && row.runId = runId && cutoffSeq < row.seq) =
        ((t.part (scope, runId)).event.filter fun e =>
          e.2.scope = scope && e.2.runId = runId && cutoffSeq < e.2.seq).map Sigma.fst := by
      intro t
      rw [Records.keysWhere_eq_owned, Records.owned_filter
        (p := fun row : EventRow => row.scope = scope && row.runId = runId)]
      · rfl
      · intro row hrow
        simp only [Bool.and_eq_true] at hrow ⊢
        exact hrow.1
    refine congrArg (fun keys : List String => Except.ok ((), keys.map (Write.event · none))) ?_
    rw [hkeys t, hkeys t', hpart]
  | selectProjection record =>
    have hlookup : t.projection.lookup record.key = t'.projection.lookup record.key := by
      rw [lookup_projection hsha h hst, lookup_projection hsha h' hst, hpart]
    exact congrArg (fun row => Except.ok (row, [])) hlookup
  | createProjection record content =>
    have hclash : ∀ row, projectionClash content row → (row.scope, row.runId) = g := by
      intro row hrow
      unfold projectionClash at hrow
      simp only [Bool.and_eq_true, decide_eq_true_eq] at hrow
      rw [hrow.1, hrow.2]
      exact hst.2
    refine create_congr ?_ ?_
    · rw [lookup_projection hsha h hst.1, lookup_projection hsha h' hst.1, hpart]
    · rw [anyElse_part hclash, anyElse_part hclash]
      exact congrArg (fun part : Entries ProjectionRow => part.any fun e =>
        e.1 ≠ record.key && projectionClash content e.2) hprojection
  | upsertProjection record content =>
    have hclash : ∀ row, projectionClash content row → (row.scope, row.runId) = g := by
      intro row hrow
      unfold projectionClash at hrow
      simp only [Bool.and_eq_true, decide_eq_true_eq] at hrow
      rw [hrow.1, hrow.2]
      exact hst.2
    apply upsert_congr
    rw [anyElse_part hclash, anyElse_part hclash]
    exact congrArg (fun part : Entries ProjectionRow => part.any fun e =>
        e.1 ≠ record.key && projectionClash content e.2) hprojection
  | selectVertex record =>
    obtain ⟨id, hkey⟩ := hst
    have hlookup : t.vertex.lookup record.key = t'.vertex.lookup record.key := by
      rw [lookup_vertex hsha h hkey, lookup_vertex hsha h' hkey, hpart]
    exact congrArg (fun row => Except.ok (row, [])) hlookup
  | createVertex record content =>
    have hclash : ∀ row, vertexClash content row → (row.scope, row.runId) = g := by
      intro row hrow
      unfold vertexClash at hrow
      simp only [Bool.and_eq_true, decide_eq_true_eq] at hrow
      rw [hrow.1.1, hrow.1.2]
      exact hst.2
    refine congrArg (content.stored sdk >>= ·) (funext fun row => create_congr ?_ ?_)
    · rw [lookup_vertex hsha h hst.1, lookup_vertex hsha h' hst.1, hpart]
    · rw [anyElse_part hclash, anyElse_part hclash]
      exact congrArg (fun part : Entries VertexRow => part.any fun e =>
        e.1 ≠ record.key && vertexClash content e.2) hvertex
  | upsertVertex record content =>
    have hclash : ∀ row, vertexClash content row → (row.scope, row.runId) = g := by
      intro row hrow
      unfold vertexClash at hrow
      simp only [Bool.and_eq_true, decide_eq_true_eq] at hrow
      rw [hrow.1.1, hrow.1.2]
      exact hst.2
    refine congrArg (content.stored sdk >>= ·) (funext fun row => upsert_congr ?_)
    rw [anyElse_part hclash, anyElse_part hclash]
    exact congrArg (fun part : Entries VertexRow => part.any fun e =>
        e.1 ≠ record.key && vertexClash content e.2) hvertex
  | selectObjects scope runId filter ordered limit =>
    obtain rfl : (scope, runId) = g := hst
    have hrows : t.objectRows scope runId = t'.objectRows scope runId := by
      rw [objectRows_part (scope, runId) t, objectRows_part (scope, runId) t', hpart]
    simp only [Stmt.exec, hrows]
  | selectRelation record =>
    obtain ⟨id, hkey⟩ := hst
    have hlookup : t.relation.lookup record.key = t'.relation.lookup record.key := by
      rw [lookup_relation hsha h hkey, lookup_relation hsha h' hkey, hpart]
    exact congrArg (fun row => Except.ok (row, [])) hlookup
  | deleteRelation record => rfl
  | insertRelation record content =>
    have hclash : ∀ row, relationClash content row → (row.scope, row.runId) = g := by
      intro row hrow
      unfold relationClash at hrow
      simp only [Bool.and_eq_true, decide_eq_true_eq] at hrow
      rw [hrow.1.1, hrow.1.2]
      exact hst.2.1
    refine create_congr ?_ ?_
    · rw [lookup_relation hsha h hst.1, lookup_relation hsha h' hst.1, hpart]
    · rw [anyElse_part hclash, anyElse_part hclash]
      exact congrArg (fun part : Entries RelationRow => part.any fun e =>
        e.1 ≠ record.key && relationClash content e.2) hrelation
  | selectRelations scope runId filter ordered =>
    obtain rfl : (scope, runId) = g := hst
    have hrows : t.relationRows scope runId = t'.relationRows scope runId := by
      rw [relationRows_part (scope, runId) t, relationRows_part (scope, runId) t', hpart]
    simp only [Stmt.exec, hrows]
  | selectPatch record =>
    obtain ⟨id, hkey⟩ := hst
    have hlookup : t.patch.lookup record.key = t'.patch.lookup record.key := by
      rw [lookup_patch hsha h hkey, lookup_patch hsha h' hkey, hpart]
    exact congrArg (fun row => Except.ok (row, [])) hlookup
  | upsertPatch record content =>
    have hclash : ∀ row, patchClash content row → (row.scope, row.runId) = g := by
      intro row hrow
      unfold patchClash at hrow
      simp only [Bool.and_eq_true, decide_eq_true_eq] at hrow
      rw [hrow.1.1, hrow.1.2]
      exact hst.2
    refine congrArg (content.stored sdk >>= ·) (funext fun row => upsert_congr ?_)
    rw [anyElse_part hclash, anyElse_part hclash]
    exact congrArg (fun part : Entries PatchRow => part.any fun e =>
        e.1 ≠ record.key && patchClash content e.2) hpatch
  | deletePatch record => rfl
  | selectPatches scope runId =>
    obtain rfl : (scope, runId) = g := hst
    have hrows : t.patchRows scope runId = t'.patchRows scope runId := by
      rw [patchRows_part (scope, runId) t, patchRows_part (scope, runId) t', hpart]
    exact congrArg (fun rows => Except.ok (List.insertionSort _ rows, [])) hrows
  | deleteRelations scope runId =>
    obtain rfl : (scope, runId) = g := hst
    exact congrArg (fun part : Entries RelationRow =>
      Except.ok ((), (part.map Sigma.fst).map (Write.relation · none))) hrelation
  | deletePatches scope runId =>
    obtain rfl : (scope, runId) = g := hst
    exact congrArg (fun part : Entries PatchRow =>
      Except.ok ((), (part.map Sigma.fst).map (Write.patch · none))) hpatch
  | deleteVertices scope runId =>
    obtain rfl : (scope, runId) = g := hst
    refine congrArg (fun ws => Except.ok ((), ws)) ?_
    change ActiveGraphSurreal.deleteVertices t (scope, runId).1 (scope, runId).2 =
      ActiveGraphSurreal.deleteVertices t' (scope, runId).1 (scope, runId).2
    rw [deleteVertices_part hsha h, deleteVertices_part hsha h', hpart]

/-! ### Fields of type `int` -/

lemma fitsInt_iff {n : Int} : fitsInt n ↔ -2 ^ 63 ≤ n ∧ n < 2 ^ 63 := by
  simp only [fitsInt, Bool.and_eq_true, decide_eq_true_eq]

lemma storedInt_of_fits {n : Int} (h : fitsInt n) : storedInt n = some n := by
  have hrange := fitsInt_iff.mp h
  rw [storedInt, if_pos ⟨by omega, by omega⟩,
    Int.bmod_eq_of_le (by norm_num; omega) (by norm_num; omega)]

lemma fits_of_storedInt {n m : Int} (h : storedInt n = some m) : fitsInt m := by
  unfold storedInt at h
  split at h
  · obtain rfl := Option.some.inj h
    have hlow := Int.le_bmod (x := n) (m := 2 ^ 64) (by decide)
    have hhigh := Int.bmod_lt (x := n) (m := 2 ^ 64) (by decide)
    norm_num at hlow hhigh
    exact fitsInt_iff.mpr ⟨by norm_num; omega, by norm_num; omega⟩
  · cases h

/-- A field keeps exactly the numbers in its range. -/
theorem storedInt_eq_self {n : Int} : storedInt n = some n ↔ fitsInt n :=
  ⟨fits_of_storedInt, storedInt_of_fits⟩

lemma storedInt_ok {n : Int} : (∃ m, storedInt n = some m) ↔ -2 ^ 64 ≤ n ∧ n < 2 ^ 64 := by
  unfold storedInt
  split
  · next h => exact iff_of_true ⟨_, rfl⟩ h
  · next h => exact iff_of_false (by simp) h

lemma intField_eq_ok {field : String} {n m : Int} :
    intField sdk field n = .ok m ↔ storedInt n = some m := by
  unfold intField
  cases storedInt n with
  | none => simp
  | some k => simp

lemma mapM_intField_eq_ok {field : String} {n m : Option Int} :
    n.mapM (intField sdk field) = .ok m ↔ n.mapM storedInt = some m := by
  cases n with
  | none => simp [pure_eq_ok]
  | some n =>
    constructor
    · intro h
      obtain ⟨k, hk, h⟩ := bind_eq_ok.mp h
      obtain rfl := pure_eq_ok.mp h
      simp [intField_eq_ok.mp hk]
    · intro h
      obtain ⟨k, hk, rfl⟩ : ∃ k, storedInt n = some k ∧ some k = m := by simpa using h
      exact bind_eq_ok.mpr ⟨k, intField_eq_ok.mpr hk, rfl⟩

lemma VertexRow.stored_eq_ok {content row : VertexRow} :
    content.stored sdk = .ok row ↔ ∃ objectSeq version,
      content.objectSeq.mapM storedInt = some objectSeq ∧
      content.version.mapM storedInt = some version ∧
      row = { content with objectSeq, version } := by
  constructor
  · intro h
    obtain ⟨objectSeq, hseq, h⟩ := bind_eq_ok.mp h
    obtain ⟨version, hversion, h⟩ := bind_eq_ok.mp h
    exact ⟨objectSeq, version, mapM_intField_eq_ok.mp hseq, mapM_intField_eq_ok.mp hversion,
      (pure_eq_ok.mp h).symm⟩
  · rintro ⟨objectSeq, version, hseq, hversion, rfl⟩
    exact bind_eq_ok.mpr ⟨objectSeq, mapM_intField_eq_ok.mpr hseq,
      bind_eq_ok.mpr ⟨version, mapM_intField_eq_ok.mpr hversion, rfl⟩⟩

lemma PatchRow.stored_eq_ok {content row : PatchRow} :
    content.stored sdk = .ok row ↔ ∃ expectedVersion,
      storedInt content.expectedVersion = some expectedVersion ∧
      row = { content with expectedVersion } := by
  constructor
  · intro h
    obtain ⟨expectedVersion, hversion, h⟩ := bind_eq_ok.mp h
    exact ⟨expectedVersion, intField_eq_ok.mp hversion, (pure_eq_ok.mp h).symm⟩
  · rintro ⟨expectedVersion, hversion, rfl⟩
    exact bind_eq_ok.mpr ⟨expectedVersion, intField_eq_ok.mpr hversion, rfl⟩

/-! ### What a statement writes -/

lemma create_writes {R : Type} {table : Table} {index : String} {r : Records R} {key : String}
    {same : R → Bool} {w : Write} {ws : List Write}
    (h : create sdk table index r key same w = .ok ((), ws)) : ws = [w] := by
  unfold create at h
  split at h
  · cases h
  · split at h
    · cases h
    · exact (Prod.mk.inj (Except.ok.inj h)).2.symm

lemma upsert_writes {R : Type} {index : String} {r : Records R} {key : String}
    {same : R → Bool} {w : Write} {ws : List Write}
    (h : upsert sdk index r key same w = .ok ((), ws)) : ws = [w] := by
  unfold upsert at h
  split at h
  · cases h
  · exact (Prod.mk.inj (Except.ok.inj h)).2.symm

lemma createVertex_writes {record : RecordId .agVertex} {content : VertexRow} {t : Tables}
    {ws : List Write} (h : Stmt.exec sdk (.createVertex record content) t = .ok ((), ws)) :
    ∃ row, content.stored sdk = .ok row ∧ ws = [.vertex record.key (some row)] := by
  obtain ⟨row, hrow, h⟩ := bind_eq_ok.mp h
  exact ⟨row, hrow, create_writes h⟩

lemma upsertVertex_writes {record : RecordId .agVertex} {content : VertexRow} {t : Tables}
    {ws : List Write} (h : Stmt.exec sdk (.upsertVertex record content) t = .ok ((), ws)) :
    ∃ row, content.stored sdk = .ok row ∧ ws = [.vertex record.key (some row)] := by
  obtain ⟨row, hrow, h⟩ := bind_eq_ok.mp h
  exact ⟨row, hrow, upsert_writes h⟩

lemma upsertPatch_writes {record : RecordId .agPatch} {content : PatchRow} {t : Tables}
    {ws : List Write} (h : Stmt.exec sdk (.upsertPatch record content) t = .ok ((), ws)) :
    ∃ row, content.stored sdk = .ok row ∧ ws = [.patch record.key (some row)] := by
  obtain ⟨row, hrow, h⟩ := bind_eq_ok.mp h
  exact ⟨row, hrow, upsert_writes h⟩

lemma takeLimit_writes {R : Type} {limit : Option Int} {rows : List R}
    {p : List R × List Write} (h : takeLimit sdk limit rows = .ok p) : p.2 = [] := by
  unfold takeLimit at h
  split at h
  · obtain rfl := Except.ok.inj h
    rfl
  · split at h
    · cases h
    · obtain rfl := Except.ok.inj h
      rfl

lemma update_within (h : Placed env t) {record : RecordId .agRun} {f : RunRow → RunRow}
    (hf : ∀ row, ((f row).scope, (f row).runId) = (row.scope, row.runId))
    (hkey : runKey env g = .ok record) (hsha : CollisionFree env) :
    ∀ w ∈ (update t.run record.key f).2, w.Within env g := by
  intro w hw
  unfold update at hw
  cases hrow : t.run.lookup record.key with
  | none => simp [hrow] at hw
  | some row =>
    simp only [hrow, List.mem_singleton] at hw
    subst hw
    refine ⟨hkey, ?_⟩
    intro r hr
    obtain rfl : f row = r := Option.some.inj hr
    rw [hf]
    have hold : runKey env (row.scope, row.runId) = .ok record := h.run record.key row hrow
    exact (key_address hsha (g := (row.scope, row.runId)) hold hkey).1

/-- The keys of a query for rows of the run, each under the key of its own fields. -/
lemma deletes_within {R : Type} {r : Records R} {p : R → Bool} {write : String → Write}
    (hp : ∀ key row, r.lookup key = some row → p row → (write key).Within env g) :
    ∀ w ∈ (r.keysWhere p).map write, w.Within env g := by
  intro w hw
  obtain ⟨key, hkey, rfl⟩ := List.mem_map.mp hw
  obtain ⟨row, hrow, hprow⟩ := Records.mem_keysWhere.mp hkey
  exact hp key row hrow hprow

/-- A statement of a run writes to its part only. -/
theorem exec_within (hsha : CollisionFree env) (h : Placed env t) {st : Stmt}
    (hst : st.Of env g) {r : st.Reply} {ws : List Write} (hexec : st.exec sdk t = .ok (r, ws)) :
    ∀ w ∈ ws, w.Within env g := by
  have hread : ws = [] → ∀ w ∈ ws, w.Within env g := by
    rintro rfl w hw
    cases hw
  have hreads : ∀ {reply : st.Reply}, st.exec sdk t = .ok (reply, []) →
      ∀ w ∈ ws, w.Within env g := fun hok =>
    hread (Prod.mk.inj (Except.ok.inj (hexec.symm.trans hok))).2
  cases st with
  | connect => exact hst.elim
  | selectSchema => exact hst.elim
  | define ddl => exact hst.elim
  | createSchema row => exact hst.elim
  | updateSchemaVersion version => exact hst.elim
  | timeNow => exact hst.elim
  | selectRun record => exact hreads rfl
  | createRun record content =>
    obtain rfl := create_writes hexec
    intro w hw
    obtain rfl := List.mem_singleton.mp hw
    refine ⟨hst.1, ?_⟩
    intro r hr
    obtain rfl := Option.some.inj hr
    exact hst.2
  | mergeHead record nextSeq headHash =>
    have hws := update_within h (f := fun row => { row with nextSeq, headHash })
      (fun _ => rfl) hst hsha
    rw [Except.ok.inj hexec] at hws
    exact hws
  | mergeRun record patch =>
    have hws := update_within h (f := patch.merge) (fun _ => rfl) hst hsha
    rw [Except.ok.inj hexec] at hws
    exact hws
  | selectEvent record => exact hreads rfl
  | selectEvents scope runId => exact hreads rfl
  | countEvents scope runId =>
    apply hread
    simp only [Stmt.exec] at hexec
    split at hexec
    · exact (Prod.mk.inj (Except.ok.inj hexec)).2.symm
    · exact (Prod.mk.inj (Except.ok.inj hexec)).2.symm
  | createEvent record content =>
    obtain rfl := create_writes hexec
    intro w hw
    obtain rfl := List.mem_singleton.mp hw
    refine ⟨content.eventId, hst.1, ?_⟩
    intro r hr
    obtain rfl := Option.some.inj hr
    exact ⟨hst.2, rfl⟩
  | deleteEventsAfter scope runId cutoffSeq =>
    obtain rfl : (scope, runId) = g := hst
    obtain ⟨-, rfl⟩ := Prod.mk.inj (Except.ok.inj hexec)
    apply deletes_within
    intro key row hrow hp
    simp only [Bool.and_eq_true, decide_eq_true_eq] at hp
    obtain ⟨⟨rfl, rfl⟩, -⟩ := hp
    exact ⟨row.eventId, h.event key row hrow, nofun⟩
  | selectProjection record => exact hreads rfl
  | createProjection record content =>
    obtain rfl := create_writes hexec
    intro w hw
    obtain rfl := List.mem_singleton.mp hw
    refine ⟨hst.1, ?_⟩
    intro r hr
    obtain rfl := Option.some.inj hr
    exact hst.2
  | upsertProjection record content =>
    obtain rfl := upsert_writes hexec
    intro w hw
    obtain rfl := List.mem_singleton.mp hw
    refine ⟨hst.1, ?_⟩
    intro r hr
    obtain rfl := Option.some.inj hr
    exact hst.2
  | selectVertex record => exact hreads rfl
  | createVertex record content =>
    obtain ⟨row, hrow, rfl⟩ := createVertex_writes hexec
    obtain ⟨seq, version, -, -, rfl⟩ := VertexRow.stored_eq_ok.mp hrow
    intro w hw
    obtain rfl := List.mem_singleton.mp hw
    refine ⟨content.objectId, hst.1, ?_⟩
    intro r hr
    obtain rfl := Option.some.inj hr
    exact ⟨hst.2, rfl⟩
  | upsertVertex record content =>
    obtain ⟨row, hrow, rfl⟩ := upsertVertex_writes hexec
    obtain ⟨seq, version, -, -, rfl⟩ := VertexRow.stored_eq_ok.mp hrow
    intro w hw
    obtain rfl := List.mem_singleton.mp hw
    refine ⟨content.objectId, hst.1, ?_⟩
    intro r hr
    obtain rfl := Option.some.inj hr
    exact ⟨hst.2, rfl⟩
  | selectObjects scope runId filter ordered limit =>
    exact hread (takeLimit_writes hexec)
  | selectRelation record => exact hreads rfl
  | deleteRelation record =>
    obtain ⟨id, hkey⟩ := hst
    obtain ⟨-, rfl⟩ := Prod.mk.inj (Except.ok.inj hexec)
    intro w hw
    obtain rfl := List.mem_singleton.mp hw
    exact ⟨id, hkey, nofun⟩
  | insertRelation record content =>
    obtain rfl := create_writes hexec
    intro w hw
    obtain rfl := List.mem_singleton.mp hw
    refine ⟨content.relationId, hst.1, ?_⟩
    intro r hr
    obtain rfl := Option.some.inj hr
    exact ⟨hst.2.1, rfl, hst.2.2⟩
  | selectRelations scope runId filter ordered => exact hreads rfl
  | selectPatch record => exact hreads rfl
  | upsertPatch record content =>
    obtain ⟨row, hrow, rfl⟩ := upsertPatch_writes hexec
    obtain ⟨expectedVersion, -, rfl⟩ := PatchRow.stored_eq_ok.mp hrow
    intro w hw
    obtain rfl := List.mem_singleton.mp hw
    refine ⟨content.patchId, hst.1, ?_⟩
    intro r hr
    obtain rfl := Option.some.inj hr
    exact ⟨hst.2, rfl⟩
  | deletePatch record =>
    obtain ⟨id, hkey⟩ := hst
    obtain ⟨-, rfl⟩ := Prod.mk.inj (Except.ok.inj hexec)
    intro w hw
    obtain rfl := List.mem_singleton.mp hw
    exact ⟨id, hkey, nofun⟩
  | selectPatches scope runId => exact hreads rfl
  | deleteRelations scope runId =>
    obtain rfl : (scope, runId) = g := hst
    obtain ⟨-, rfl⟩ := Prod.mk.inj (Except.ok.inj hexec)
    apply deletes_within
    intro key row hrow hp
    simp only [Bool.and_eq_true, decide_eq_true_eq] at hp
    obtain ⟨rfl, rfl⟩ := hp
    exact ⟨row.relationId, h.relation key row hrow, nofun⟩
  | deletePatches scope runId =>
    obtain rfl : (scope, runId) = g := hst
    obtain ⟨-, rfl⟩ := Prod.mk.inj (Except.ok.inj hexec)
    apply deletes_within
    intro key row hrow hp
    simp only [Bool.and_eq_true, decide_eq_true_eq] at hp
    obtain ⟨rfl, rfl⟩ := hp
    exact ⟨row.patchId, h.patch key row hrow, nofun⟩
  | deleteVertices scope runId =>
    obtain rfl : (scope, runId) = g := hst
    obtain ⟨-, rfl⟩ := Prod.mk.inj (Except.ok.inj hexec)
    rw [deleteVertices_part (g := (scope, runId)) hsha h]
    intro w hw
    rcases List.mem_append.mp hw with hw | hw
    · obtain ⟨key, hkey, rfl⟩ := List.mem_map.mp hw
      obtain ⟨e, he, rfl⟩ := List.mem_map.mp hkey
      have hown : e ∈ Records.owned
          (fun row : RelationRow => row.scope = scope && row.runId = runId) t.relation :=
        List.mem_of_mem_filter he
      obtain ⟨hrow, hp⟩ := Records.mem_owned.mp hown
      simp only [Bool.and_eq_true, decide_eq_true_eq] at hp
      obtain ⟨rfl, rfl⟩ := hp
      exact ⟨e.2.relationId, h.relation e.1 e.2 hrow, nofun⟩
    · obtain ⟨key, hkey, rfl⟩ := List.mem_map.mp hw
      obtain ⟨e, he, rfl⟩ := List.mem_map.mp hkey
      have hown : e ∈ Records.owned
          (fun row : VertexRow => row.scope = scope && row.runId = runId) t.vertex := he
      obtain ⟨hrow, hp⟩ := Records.mem_owned.mp hown
      simp only [Bool.and_eq_true, decide_eq_true_eq] at hp
      obtain ⟨rfl, rfl⟩ := hp
      exact ⟨e.2.objectId, h.vertex e.1 e.2 hrow, nofun⟩

end reads

end ActiveGraphSurreal
