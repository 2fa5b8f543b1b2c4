import ActiveGraphSurreal.Connection
import ActiveGraphSurreal.Library.Clients
import ActiveGraphSurreal.Proofs.Reference

/-!
# Schema versions

Connections of providers with different schema versions install their schemas on one
database. An update of the version follows a read of a lower one, but not in one transaction.
-/

namespace ActiveGraphSurreal

open Library

/-! ### Connections at work -/

/-- A connection of a provider whose `SCHEMA_VERSION` is `supported`. -/
structure SchemaConnection where
  supported : Int
  schemaReady : Bool

abbrev SchemaLabel := Label Nat SchemaConnection Unit Call Answer (Except PyErr Int) Database

abbrev SchemaConfig := Config Nat SchemaConnection Unit Call Answer (Except PyErr Int) Database

variable (sdk : Sdk) (lostCall lostAnswer : Prop)

/-- The connections of one database, which call `ensure_schema` as often as they like. -/
def schemaSystem : System Nat SchemaConnection Unit Call Answer (Except PyErr Int) Database where
  serve i := (engine sdk).serve (faults lostCall lostAnswer) i
  code self _ := (ensureSchema self.supported self.schemaReady ()).bind fun x => .done x.1
  finish self _ _ a := { self with schemaReady := self.schemaReady || a.toBool }

/-- New connections. -/
def connections (supported : Nat → Int) (db : Database) : SchemaConfig :=
  ⟨db, fun i => .idle ⟨supported i, false⟩⟩

def Tables.version (t : Tables) : Option Int := t.schema.map (·.version)

/-- The stored version is not lowered. -/
def Upholds (s s' : Database) : Prop :=
  ∀ v, s.tables.version = some v → ∃ w, s'.tables.version = some w ∧ v ≤ w

/-- The database has carried out the call. -/
def CarriedOut (i : Nat) (rec : CallRec Call Answer Database) : Prop :=
  rec.after = ((engine sdk).perform i rec.call rec.before).2

/-- Between the last read of the schema record by a connection and its update of the version,
another connection has left a higher one. -/
def Overtaken (tr : List SchemaLabel) : Prop :=
  ∃ tr₁ i l op read tr₂ update tr₃ v,
    tr = tr₁ ++ .call i l op read :: (tr₂ ++ .call i l op update :: tr₃) ∧
    read.call = .query .selectSchema ∧ update.call = .query (.updateSchemaVersion v) ∧
    (∀ e ∈ tr₂, e.client ≠ i) ∧ CarriedOut sdk i update ∧
    ∃ j l' op' rec w, .call j l' op' rec ∈ tr₂ ∧ rec.after.tables.version = some w ∧ v < w

variable {sdk lostCall lostAnswer}

lemma upholds_refl (s : Database) : Upholds s s := fun v hv => ⟨v, hv, le_rfl⟩

lemma upholds_trans (a b c : Database) (h : Upholds a b) (h' : Upholds b c) : Upholds a c := by
  intro v hv
  obtain ⟨w, hw, hvw⟩ := h v hv
  obtain ⟨x, hx, hwx⟩ := h' w hw
  exact ⟨x, hx, hvw.trans hwx⟩

/-! ### The calls of `ensure_schema` -/

/-- The calls of an installation. An update comes right after a read of a lower version. -/
def ReadsFirst (last : Option (Sigma Answer)) : Call → Prop
  | .query .selectSchema | .query (.define _) | .query (.createSchema _) | .query .timeNow => True
  | .query (.updateSchemaVersion v) =>
    ∃ row, last = some ⟨.query .selectSchema, .ok (some row)⟩ ∧ row.version < v
  | _ => False

/-- What the result says about the last call: a row has just been read. -/
def JustRead {ℓ : Type} (last : Option (Sigma Answer)) : Except PyErr (Option SchemaRow) × ℓ → Prop
  | (.ok (some row), _) => last = some ⟨.query .selectSchema, .ok (some row)⟩
  | _ => True

section follows

variable {ℓ : Type} {last : Option (Sigma Answer)} {l : ℓ}

lemma follows_selectSchema :
    ((query .selectSchema : Py ℓ (Option SchemaRow)) l).Follows ReadsFirst JustRead last := by
  refine ⟨trivial, fun r => ?_⟩
  match r with
  | .error _ => trivial
  | .ok none => trivial
  | .ok (some _) => rfl

lemma follows_defineAll (statements : List Ddl) :
    ((defineAll statements : Py ℓ Unit) l).Follows ReadsFirst (fun _ _ => True) last := by
  induction statements generalizing last l with
  | nil => trivial
  | cons statement statements ih =>
    refine Method.follows_bind (M := fun _ _ => True) ⟨trivial, fun _ => trivial⟩ ?_ ?_
    · intro last _ l' _
      exact ih
    · exact fun _ _ _ _ => trivial

lemma follows_createSchemaRecord (supported : Int) :
    ((createSchemaRecord supported : Py ℓ (Option SchemaRow)) l).Follows ReadsFirst JustRead last := by
  refine Method.follows_tryElse (M := fun _ _ => True) ?_ ?_ ?_
  · refine Method.follows_bind (M := fun _ _ => True) ⟨trivial, fun _ => trivial⟩ ?_ ?_
    · exact fun _ _ _ _ => ⟨trivial, fun _ => trivial⟩
    · exact fun _ _ _ _ => trivial
  · intro last _ l' _
    exact follows_selectSchema
  · intro last e l' _
    refine Method.follows_bind follows_selectSchema ?_ ?_
    · intro last current l'' hread
      cases current with
      | none => exact trivial
      | some row => exact hread
    · exact fun _ _ _ _ => trivial

lemma follows_installedSchema (supported : Int) :
    ((installedSchema supported : Py ℓ (Option SchemaRow)) l).Follows ReadsFirst JustRead last := by
  refine Method.follows_bind follows_selectSchema ?_ ?_
  · intro last current l' hread
    cases current with
    | none => exact follows_createSchemaRecord supported
    | some row => exact hread
  · exact fun _ _ _ _ => trivial

lemma follows_upgradeSchema (supported : Int) {row : SchemaRow}
    (hread : last = some ⟨.query .selectSchema, .ok (some row)⟩) :
    ((upgradeSchema supported row : Py ℓ Int) l).Follows ReadsFirst (fun _ _ => True) last := by
  unfold upgradeSchema
  -- the checks make no call, so the read is still the last one
  cases hcheck : assertSchemaVersion supported row with
  | error e => exact trivial
  | ok _ =>
    by_cases hlower : row.version < supported
    · rw [if_pos hlower]
      exact ⟨⟨row, hread, hlower⟩, fun r => by cases r <;> trivial⟩
    · rw [if_neg hlower]
      trivial

lemma follows_selectExistingSchema :
    ((selectExistingSchema : Py ℓ (Option SchemaRow)) l).Follows ReadsFirst (fun _ _ => True)
      last := by
  refine Method.follows_tryCatch follows_selectSchema ?_ ?_
  · exact fun _ _ _ _ => trivial
  · intro last e l' _
    split
    · trivial
    · trivial

lemma follows_definitions (supported : Int) :
    ((do
      defineAll schemaStatements
      match ← installedSchema supported with
      | none => throw missingSchema
      | some current => upgradeSchema supported current : Py ℓ Int) l).Follows ReadsFirst
      (fun _ _ => True) last := by
  refine Method.follows_bind (follows_defineAll _) ?_ ?_
  · intro last _ l' _
    refine Method.follows_bind (follows_installedSchema supported) ?_ ?_
    · intro last current l' hread
      cases current with
      | none => trivial
      | some row => exact follows_upgradeSchema supported hread
    · exact fun _ _ _ _ => trivial
  · exact fun _ _ _ _ => trivial

theorem follows_ensureSchema (supported : Int) (schemaReady : Bool) :
    ((ensureSchema supported schemaReady : Py ℓ Int) l).Follows ReadsFirst (fun _ _ => True)
      last := by
  cases schemaReady with
  | true => trivial
  | false =>
    refine Method.follows_bind (M := fun _ _ => True) follows_selectExistingSchema ?_ ?_
    · intro last existing l' _
      cases existing with
      | none => exact follows_definitions supported
      | some row =>
        refine Method.follows_bind (M := fun _ _ => True) (Method.follows_lift trivial) ?_ ?_
        · exact fun _ _ _ _ => follows_definitions supported
        · exact fun _ _ _ _ => trivial
    · exact fun _ _ _ _ => trivial

end follows

/-! ### What a call does to the stored version -/

lemma version_perform_query {i : Nat} {st : Stmt} {s : Database}
    (h : ∀ r ws, st.exec sdk s.tables = .ok (r, ws) → ∀ w ∈ ws, ∀ row, w ≠ .schema row) :
    ((engine sdk).perform i (.query st) s).2.tables.version = s.tables.version := by
  have hkept : ∀ (ws : List Write) (t : Tables), (∀ w ∈ ws, ∀ row, w ≠ .schema row) →
      ((engine sdk).applyAll ws t).version = t.version := by
    intro ws
    induction ws with
    | nil => exact fun _ _ => rfl
    | cons w ws ih =>
      intro t hws
      have hrest := ih (w.apply t) fun w' h' => hws w' (List.mem_cons_of_mem _ h')
      refine hrest.trans ?_
      have hw := hws w (List.mem_cons_self ..)
      cases w with
      | schema row => exact absurd rfl (hw row)
      | _ => rfl
  cases hexec : st.exec sdk s.tables with
  | error e => simp [Engine.perform, engine, hexec]
  | ok p =>
    obtain ⟨r, ws⟩ := p
    have hperform : ((engine sdk).perform i (.query st) s).2 = (engine sdk).commit ws s := by
      simp [Engine.perform, engine, hexec]
    rw [hperform]
    rcases (engine sdk).commit_cases ws s with ⟨-, heq⟩ | ⟨-, hcommits⟩
    · rw [heq]
    · rw [hcommits.1]
      exact hkept ws _ (h r ws hexec)

lemma upholds_of_version {s s' : Database} (h : s'.tables.version = s.tables.version) :
    Upholds s s' := by
  intro v hv
  exact ⟨v, h.trans hv, le_rfl⟩

lemma perform_createSchema {i : Nat} {row : SchemaRow} (s : Database) :
    Upholds s ((engine sdk).perform i (.query (.createSchema row)) s).2 := by
  cases hschema : s.tables.schema with
  | none =>
    intro v hv
    simp [Tables.version, hschema] at hv
  | some old => exact upholds_of_version (by simp [Engine.perform, engine, Stmt.exec, hschema])

lemma perform_updateSchemaVersion {i : Nat} {v w : Int} {s : Database}
    (hw : s.tables.version = some w) :
    ((engine sdk).perform i (.query (.updateSchemaVersion v)) s).2.tables.version = some v := by
  obtain ⟨row, hrow, rfl⟩ := Option.map_eq_some_iff.mp hw
  simp [Engine.perform, engine, Stmt.exec, hrow, Engine.commit, Engine.applyAll, Write.apply,
    Tables.version]

lemma serve_state {i : Nat} {c : Call} {s s' : Database} {r : Answer c}
    (h : (engine sdk).serve (faults lostCall lostAnswer) i c s r s') :
    s' = s ∨ s' = ((engine sdk).perform i c s).2 := by
  rcases h with h | ⟨e, -, -, ⟨-, rfl⟩ | ⟨-, rfl⟩⟩
  · exact .inr (congrArg Prod.snd h)
  · exact .inl rfl
  · exact .inr rfl

/-- The one call of an installation that can lower the version is an update. -/
lemma upholds_or_update {i : Nat} {last : Option (Sigma Answer)}
    {rec : CallRec Call Answer Database} (hcall : ReadsFirst last rec.call)
    (hserve : (engine sdk).serve (faults lostCall lostAnswer) i rec.call rec.before rec.answer
      rec.after) :
    Upholds rec.before rec.after ∨ ∃ v w, rec.call = .query (.updateSchemaVersion v) ∧
      CarriedOut sdk i rec ∧ rec.before.tables.version = some w ∧ v < w := by
  obtain ⟨c, s, r, s'⟩ := rec
  simp only at hcall hserve ⊢
  rcases serve_state hserve with rfl | rfl
  · exact .inl (upholds_refl s')
  · cases c with
    | begin => exact hcall.elim
    | commit => exact hcall.elim
    | cancel => exact hcall.elim
    | txQuery st => exact hcall.elim
    | query st =>
      cases st with
      | selectSchema =>
        refine .inl (upholds_of_version (version_perform_query ?_))
        intro r ws hexec w hw
        simp only [Stmt.exec] at hexec
        split at hexec
        · obtain ⟨-, rfl⟩ := Prod.mk.inj (Except.ok.inj hexec)
          cases hw
        · cases hexec
      | define ddl =>
        refine .inl (upholds_of_version (version_perform_query ?_))
        intro r ws hexec w hw row
        cases ddl with
        | table table =>
          obtain ⟨-, rfl⟩ := Prod.mk.inj (Except.ok.inj hexec)
          split at hw
          · cases hw
          · rw [List.mem_singleton.mp hw]
            exact nofun
        | field table name type =>
          obtain ⟨-, rfl⟩ := Prod.mk.inj (Except.ok.inj hexec)
          cases hw
        | index table name fields isUnique =>
          obtain ⟨-, rfl⟩ := Prod.mk.inj (Except.ok.inj hexec)
          cases hw
      | createSchema row => exact .inl (perform_createSchema s)
      | updateSchemaVersion v =>
        cases hversion : s.tables.version with
        | none =>
          left
          intro w hw
          rw [hversion] at hw
          cases hw
        | some w =>
          by_cases hlower : v < w
          · exact .inr ⟨v, w, rfl, rfl, rfl, hlower⟩
          · left
            intro w' hw'
            obtain rfl : w = w' := Option.some.inj (hversion.symm.trans hw')
            exact ⟨v, perform_updateSchemaVersion hversion, not_lt.mp hlower⟩
      | timeNow =>
        refine .inl (upholds_of_version (version_perform_query ?_))
        intro r ws hexec w hw
        obtain ⟨-, rfl⟩ := Prod.mk.inj (Except.ok.inj hexec)
        cases hw
      | _ => exact hcall.elim

lemma read_version {i : Nat} {read : CallRec Call Answer Database} {row : SchemaRow}
    (hread : (⟨.query .selectSchema, .ok (some row)⟩ : Sigma Answer) = ⟨read.call, read.answer⟩)
    (hserve : (engine sdk).serve (faults lostCall lostAnswer) i read.call read.before read.answer
      read.after) :
    read.call = .query .selectSchema ∧ read.after.tables.version = some row.version := by
  obtain ⟨c, s, r, s'⟩ := read
  obtain ⟨rfl, hr⟩ := Sigma.mk.inj hread
  obtain rfl := eq_of_heq hr
  refine ⟨rfl, ?_⟩
  rcases hserve with h | ⟨e, -, he, -⟩
  · simp only [Engine.perform, engine, Stmt.exec] at h
    by_cases hdefined : .agSchema ∈ s.tables.defined
    · simp only [hdefined, if_true, Engine.commit, Prod.mk.injEq, Except.ok.injEq] at h
      obtain ⟨hrow, rfl⟩ := h
      simp [Tables.version, ← hrow]
    · simp [hdefined] at h
  · cases he

/-! ### Runs of installations -/

lemma code_follows (self : SchemaConnection) (op : Unit) :
    ((schemaSystem sdk lostCall lostAnswer).code self op).Follows ReadsFirst (fun _ _ => True)
      none := by
  apply Prog.follows_bind_iff.mpr
  exact follows_ensureSchema self.supported self.schemaReady

lemma version_le_path {v : Int} {c c' : SchemaConfig} {tr : List SchemaLabel}
    (hr : (schemaSystem sdk lostCall lostAnswer).Run c tr c')
    (hcalls : ∀ i l op rec, .call i l op rec ∈ tr →
      ∀ w, rec.after.tables.version = some w → w ≤ v)
    (hc : ∀ w, c.shared.tables.version = some w → w ≤ v) :
    ∀ w, c'.shared.tables.version = some w → w ≤ v := by
  have hpath := hr.path (R := fun s s' : Database => (∀ w, s.tables.version = some w → w ≤ v) →
    ∀ w, s'.tables.version = some w → w ≤ v) (fun _ h => h)
    (fun _ _ _ h h' hs => h' (h hs)) fun i l op rec hmem _ => hcalls i l op rec hmem
  exact hpath hc

/-- The stored version is never lowered exactly in the runs in which no update is overtaken. -/
theorem version_never_lowered_iff {supported : Nat → Int} {db : Database} {c : SchemaConfig}
    {tr : List SchemaLabel}
    (hr : (schemaSystem sdk lostCall lostAnswer).Run (connections supported db) tr c) :
    (∀ i l op rec, .call i l op rec ∈ tr → Upholds rec.before rec.after) ↔ ¬ Overtaken sdk tr := by
  constructor
  · rintro hupholds ⟨tr₁, i, l, op, read, tr₂, update, tr₃, v, rfl, -, hupdate, -, hcarried,
      j, l', op', rec, w, hmem, hw, hlower⟩
    obtain ⟨a, b, rfl⟩ := List.append_of_mem hmem
    have hcut : (tr₁ ++ .call i l op read :: a) ++ (.call j l' op' rec ::
        (b ++ .call i l op update :: tr₃)) = tr₁ ++ .call i l op read ::
        ((a ++ .call j l' op' rec :: b) ++ .call i l op update :: tr₃) := by simp
    obtain ⟨c₁, -, hr₁⟩ := hr.split hcut
    obtain ⟨-, -, d, hd, hrest⟩ := hr₁.call_cons
    obtain ⟨d', hr₂, hr₃⟩ := hrest.split (a := b) rfl
    obtain ⟨hbefore, -, -⟩ := hr₃.call_cons
    have hpath : Upholds d.shared d'.shared := by
      refine hr₂.path upholds_refl upholds_trans ?_
      intro i' l₁ op₁ rec₁ hmem₁
      exact hupholds i' l₁ op₁ rec₁ (by simp [hmem₁])
    rw [hd, hbefore] at hpath
    obtain ⟨x, hx, hwx⟩ := hpath w hw
    obtain ⟨y, hy, hxy⟩ := hupholds i l op update (by simp) x hx
    unfold CarriedOut at hcarried
    rw [hcarried, hupdate, perform_updateSchemaVersion hx] at hy
    obtain rfl := Option.some.inj hy
    omega
  · intro hnot i l op rec hmem
    obtain ⟨a, b, rfl⟩ := List.append_of_mem hmem
    obtain ⟨last, hlast, hfirst⟩ :=
      (System.Run.follows code_follows hr).2 a i l op rec b rfl
    obtain ⟨c₁, hr₁, hr₂⟩ := hr.split (a := a) rfl
    obtain ⟨hbefore, hserve, -⟩ := hr₂.call_cons
    rcases upholds_or_update hfirst hserve with h | ⟨v, w, hupdate, hcarried, hw, hlower⟩
    · exact h
    · rw [hupdate] at hfirst
      obtain ⟨row, rfl, hrow⟩ := hfirst
      obtain ⟨tr₁, read, tr₂, rfl, hread, hothers⟩ := hlast
      obtain ⟨c₂, -, hr₃⟩ := hr₁.split (a := tr₁) rfl
      obtain ⟨-, hserve', d, hd, hr₄⟩ := hr₃.call_cons
      obtain ⟨hcall, hversion⟩ := read_version hread hserve'
      refine absurd ⟨tr₁, i, l, op, read, tr₂, rec, b, v, by simp, hcall, hupdate, hothers,
        hcarried, ?_⟩ hnot
      -- otherwise the version is still at most `v` when the update comes
      by_contra hnone
      have hbound := version_le_path (v := v) hr₄ ?_ ?_ w (hbefore ▸ hw)
      · omega
      · intro j l' op' rec' hmem' x hx
        by_contra hlt
        exact hnone ⟨j, l', op', rec', x, hmem', hx, not_le.mp hlt⟩
      · intro x hx
        rw [hd, hversion] at hx
        obtain rfl := Option.some.inj hx
        omega

/-- A database of the first schema version. -/
def firstVersion : Database :=
  ⟨{ Tables.empty with schema := some ⟨1, "then"⟩, defined := [.agSchema] }, [], fun _ => none⟩

/-- A provider of version 2 reads the record before a provider of version 3 has upgraded it
and writes after that. -/
def rollingUpgrade : List (System.Order Nat Unit) :=
  [.start 0 ()] ++ List.replicate (schemaStatements.length + 2) (.step 0) ++
    [.start 1 (), .finish 1, .finish 0]

def upgraded : List SchemaLabel × SchemaConfig :=
  (schemaSystem referenceSdk False False).schedule (performAll referenceSdk)
    (connections (fun i => if i = 0 then 2 else 3) firstVersion) rollingUpgrade

lemma run_upgraded : (schemaSystem referenceSdk False False).Run
    (connections (fun i => if i = 0 then 2 else 3) firstVersion) upgraded.1 upgraded.2 :=
  System.Run.schedule (fun _ _ _ => Or.inl rfl) .nil rollingUpgrade

theorem version_never_lowered_iff_rollingUpgrade :
    (∀ i l op rec, .call i l op rec ∈ upgraded.1 → Upholds rec.before rec.after) ↔
      ¬ Overtaken referenceSdk upgraded.1 :=
  version_never_lowered_iff run_upgraded

/-- The label is that of a call that puts version 2 in the place of version 3. -/
def downgrades : SchemaLabel → Bool
  | .call _ _ _ rec => rec.before.tables.version = some 3 && rec.after.tables.version = some 2
  | _ => false

theorem rolling_upgrade_lowers_version :
    ¬ ∀ (supported : Nat → Int) (db : Database) tr c,
      (schemaSystem referenceSdk False False).Run (connections supported db) tr c →
      ∀ i l op rec, .call i l op rec ∈ tr → Upholds rec.before rec.after := by
  intro hnever
  have hany : upgraded.1.any downgrades = true := by decide +kernel
  obtain ⟨e, hmem, he⟩ := List.any_eq_true.mp hany
  unfold downgrades at he
  split at he
  · next i l op rec =>
    rw [Bool.and_eq_true] at he
    obtain ⟨w, hw, hle⟩ := hnever _ _ _ _ run_upgraded i l op rec hmem 3
      (of_decide_eq_true he.1)
    rw [of_decide_eq_true he.2] at hw
    obtain rfl := Option.some.inj hw
    omega
  · cases he

end ActiveGraphSurreal
