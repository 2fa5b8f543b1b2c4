import ActiveGraphSurreal.Proofs.Isolation
import ActiveGraphSurreal.Proofs.Visible

/-!
# The contents of a projection

A graph store works on the status record and the entities of its projection. What its
statements answer depends on these rows alone, whatever happens to the ledger.
-/

namespace ActiveGraphSurreal

open Library

set_option linter.unusedSectionVars false

variable {F X : Type} [Json.ScalarText F] (env : Env F X) (g : String × String)

def Tables.contents (t : Tables) (g : String × String) : Contents := (t.part g).contents

/-- The rows of the entities: those without the status. -/
def Contents.entities (c : Contents) : Entries VertexRow × Entries RelationRow × Entries PatchRow :=
  (c.vertex, c.relation, c.patch)

/-- A statement that works on a projection. -/
def Stmt.OnProjection (st : Stmt) : Prop :=
  st.OnContents ∨ ∃ record content, st = .upsertProjection record content

structure Stmt.Projecting (st : Stmt) : Prop where
  of : st.Of env g
  projection : st.OnProjection

/-- A write to a projection, and one to its entities. -/
def Write.OnProjection : Write → Prop
  | .projection _ _ | .vertex _ _ | .relation _ _ | .patch _ _ => True
  | _ => False

def Write.OnEntities : Write → Prop
  | .vertex _ _ | .relation _ _ | .patch _ _ => True
  | _ => False

structure Write.Projecting (w : Write) : Prop where
  within : w.Within env g
  projection : w.OnProjection

structure Write.Entity (w : Write) : Prop where
  within : w.Within env g
  entity : w.OnEntities

/-- The records of a projection. -/
def OwnRecord : Target → Prop
  | .record .agProjection key => projectionKey env g = .ok ⟨key⟩
  | .record .agVertex key => ∃ id, vertexKey env g id = .ok ⟨key⟩
  | .record .agRelation key => ∃ id, relationKey env g id = .ok ⟨key⟩
  | .record .agPatch key => ∃ id, patchKey env g id = .ok ⟨key⟩
  | _ => False

variable {env g} {t t' : Tables} {sdk : Sdk}

/-! ### The ledger does not matter -/

/-- Tables with the ledger of others. -/
def Tables.withLedger (t t' : Tables) : Tables := { t with run := t'.run, event := t'.event }

lemma placed_withLedger (ht : Placed env t) (ht' : Placed env t') :
    Placed env (t.withLedger t') := { ht with run := ht'.run, event := ht'.event }

lemma part_withLedger (h : t.contents g = t'.contents g) :
    (t.withLedger t').part g = t'.part g := by
  obtain ⟨hprojection, hvertex, hrelation, hpatch⟩ := Contents.mk.inj h
  have hpart : (t.withLedger t').part g = ⟨(t'.part g).run, (t'.part g).event,
      (t.part g).projection, (t.part g).vertex, (t.part g).relation, (t.part g).patch⟩ := rfl
  rw [hpart, hprojection, hvertex, hrelation, hpatch]

lemma exec_withLedger {st : Stmt} (hst : st.OnProjection) :
    st.exec sdk (t.withLedger t') = st.exec sdk t := by
  rcases hst with hst | ⟨record, content, rfl⟩
  · cases st <;> first | exact hst.elim | rfl
  · rfl

lemma contents_apply_withLedger {w : Write} (hw : w.OnProjection) :
    (w.apply (t.withLedger t')).contents g = (w.apply t).contents g := by
  cases w <;> first | exact hw.elim | rfl

/-- What a statement asks for, by its kind. -/
lemma exec_entities {st : Stmt} (hst : st.OnContents) {r : st.Reply} {ws : List Write}
    (hexec : st.exec sdk t = .ok (r, ws)) : (∀ w ∈ ws, w.OnEntities) := by
  have hone : ∀ {w : Write}, ws = [w] → w.OnEntities → ∀ w ∈ ws, w.OnEntities := by
    rintro w rfl hw w' hw'
    rw [List.mem_singleton.mp hw']
    exact hw
  have hwrites : ∀ {reply : st.Reply} {ws' : List Write}, st.exec sdk t = .ok (reply, ws') →
      ws = ws' := fun hok => (Prod.mk.inj (Except.ok.inj (hexec.symm.trans hok))).2
  have hread : ws = [] → ∀ w ∈ ws, w.OnEntities := by
    rintro rfl w hw
    cases hw
  have hdeletes : ∀ {keys : List String} {write : String → Write},
      ws = keys.map write → (∀ key, (write key).OnEntities) → ∀ w ∈ ws, w.OnEntities := by
    rintro keys write rfl hwrite w hw
    obtain ⟨key, -, rfl⟩ := List.mem_map.mp hw
    exact hwrite key
  cases st with
  | selectProjection record => exact hread (hwrites rfl)
  | selectVertex record => exact hread (hwrites rfl)
  | createVertex record content =>
    obtain ⟨row, -, hws⟩ := createVertex_writes hexec
    exact hone hws trivial
  | upsertVertex record content =>
    obtain ⟨row, -, hws⟩ := upsertVertex_writes hexec
    exact hone hws trivial
  | selectObjects scope runId filter ordered limit => exact hread (takeLimit_writes hexec)
  | selectRelation record => exact hread (hwrites rfl)
  | deleteRelation record => exact hone (hwrites rfl) trivial
  | insertRelation record content => exact hone (create_writes hexec) trivial
  | selectRelations scope runId filter ordered => exact hread (hwrites rfl)
  | selectPatch record => exact hread (hwrites rfl)
  | upsertPatch record content =>
    obtain ⟨row, -, hws⟩ := upsertPatch_writes hexec
    exact hone hws trivial
  | deletePatch record => exact hone (hwrites rfl) trivial
  | selectPatches scope runId => exact hread (hwrites rfl)
  | deleteRelations scope runId => exact hdeletes (hwrites rfl) fun _ => trivial
  | deletePatches scope runId => exact hdeletes (hwrites rfl) fun _ => trivial
  | deleteVertices scope runId =>
    rw [hwrites rfl]
    intro w hw
    rcases List.mem_append.mp hw with hw | hw
    · obtain ⟨key, -, rfl⟩ := List.mem_map.mp hw
      trivial
    · obtain ⟨key, -, rfl⟩ := List.mem_map.mp hw
      trivial
  | _ => exact hst.elim

lemma Write.OnEntities.onProjection {w : Write} (hw : w.OnEntities) : w.OnProjection := by
  cases w <;> first | exact hw.elim | trivial

lemma exec_projecting {st : Stmt} (hst : st.OnProjection) {r : st.Reply} {ws : List Write}
    (hexec : st.exec sdk t = .ok (r, ws)) : ∀ w ∈ ws, w.OnProjection := by
  rcases hst with hst | ⟨record, content, rfl⟩
  · exact fun w hw => (exec_entities hst hexec w hw).onProjection
  · intro w hw
    rw [upsert_writes hexec] at hw
    rw [List.mem_singleton.mp hw]
    trivial

lemma owned_of_projecting {w : Write} (hw : w.Projecting env g) : OwnRecord env g w.target := by
  obtain ⟨hwithin, hkind⟩ := hw
  cases w with
  | projection key row => exact hwithin.1
  | vertex key row =>
    obtain ⟨id, hkey, -⟩ := hwithin
    exact ⟨id, hkey⟩
  | relation key row =>
    obtain ⟨id, hkey, -⟩ := hwithin
    exact ⟨id, hkey⟩
  | patch key row =>
    obtain ⟨id, hkey, -⟩ := hwithin
    exact ⟨id, hkey⟩
  | _ => exact hkind.elim

/-- A graph store sees and changes the contents of its projection only. -/
theorem local_contents (hsha : CollisionFree env) (sdk : Sdk) (g : String × String) :
    Local (engine sdk) (Stmt.Projecting env g) (Placed env) (Write.Projecting env g)
      (OwnRecord env g) (Tables.contents · g) where
  exec _ _ _ _ hst ht hexec w hw :=
    ⟨exec_within hsha ht hst.of hexec w hw, exec_projecting hst.projection hexec w hw⟩
  apply _ _ ht hw := placed_apply ht hw.within
  agree st t t' hst ht ht' hsame := by
    have hagree : st.exec sdk (t.withLedger t') = st.exec sdk t' :=
      exec_agree hsha (placed_withLedger ht ht') ht' (part_withLedger hsame) hst.of
    rw [exec_withLedger hst.projection] at hagree
    exact hagree
  congr t t' w hw hsame := by
    have hcongr := part_apply_congr (w := w) (part_withLedger hsame)
    have hcontents := congrArg Part.contents hcongr
    exact (contents_apply_withLedger hw.projection).symm.trans hcontents
  owned _ hw := owned_of_projecting hw

/-- A graph at work keeps the tables placed by writes to the entities. -/
theorem kept_entities (hsha : CollisionFree env) (sdk : Sdk) (g : String × String) :
    Kept (engine sdk) (Stmt.Inside env g) (Placed env) (Write.Entity env g) where
  exec _ _ _ _ hst ht hexec w hw :=
    ⟨exec_within hsha ht hst.of hexec w hw, exec_entities hst.contents hexec w hw⟩
  apply _ _ ht hw := placed_apply ht hw.within

/-- Writes to the entities leave the status alone. -/
lemma projection_applyAll {ws : List Write} (hws : ∀ w ∈ ws, w.OnEntities) :
    ((engine sdk).applyAll ws t).projection = t.projection := by
  induction ws generalizing t with
  | nil => rfl
  | cons w ws ih =>
    have hfirst : (w.apply t).projection = t.projection := by
      have hw : w.OnEntities := hws w (List.mem_cons_self ..)
      cases w <;> first | exact hw.elim | rfl
    exact (ih fun w' hw' => hws w' (List.mem_cons_of_mem _ hw')).trans hfirst

/-- Writes to a projection leave the ledger alone. -/
lemma ledger_applyAll_projecting {ws : List Write} (hws : ∀ w ∈ ws, w.OnProjection) :
    ((engine sdk).applyAll ws t).run = t.run ∧ ((engine sdk).applyAll ws t).event = t.event := by
  induction ws generalizing t with
  | nil => exact ⟨rfl, rfl⟩
  | cons w ws ih =>
    have hfirst : (w.apply t).run = t.run ∧ (w.apply t).event = t.event := by
      have hw : w.OnProjection := hws w (List.mem_cons_self ..)
      cases w <;> first | exact hw.elim | exact ⟨rfl, rfl⟩
    obtain ⟨hrun, hevent⟩ := ih (t := w.apply t) fun w' hw' => hws w' (List.mem_cons_of_mem _ hw')
    exact ⟨hrun.trans hfirst.1, hevent.trans hfirst.2⟩

/-! ### The methods of the lifecycle -/

namespace GraphStore

variable {begun : Bool}

variable (env g) in
/-- The method stays inside the projection. -/
abbrev Projecting {α : Type} (begun : Bool) (m : Py GraphStore α) : Prop :=
  KeepsTo (Stmt.Projecting env g) (At env g) begun m

lemma Inside.projecting {α : Type} {m : Py GraphStore α} (hm : Inside env g begun m) :
    Projecting env g begun m := hm.mono fun _ hst => ⟨hst.of, .inl hst.contents⟩

lemma projecting_setProjectionStatus (status : String) (error : Option String) :
    Projecting env g begun (setProjectionStatus status error) := by
  unfold setProjectionStatus
  refine KeepsTo.get fun self hself => ?_
  exact keepsTo_query ⟨⟨hself.record, hself.address⟩, .inr ⟨_, _, rfl⟩⟩

lemma projecting_setRebuilding (b : Bool) :
    Projecting env g begun (modify fun self => { self with rebuildingHere := b }) :=
  keepsTo_modify fun _ hself => ⟨hself.address, hself.record⟩

lemma projecting_beginRebuild : Projecting env g begun beginRebuild := by
  unfold beginRebuild
  refine keepsTo_ensureOpen.bind fun _ => (projecting_setProjectionStatus _ _).bind fun _ => ?_
  exact (projecting_setRebuilding true).bind fun _ => inside_clear.projecting

lemma projecting_markReady : Projecting env g begun markReady := by
  unfold markReady
  refine keepsTo_ensureOpen.bind fun _ => (projecting_setProjectionStatus _ _).bind fun _ => ?_
  exact projecting_setRebuilding false

end GraphStore

end ActiveGraphSurreal
