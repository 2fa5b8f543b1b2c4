import ActiveGraphSurreal.Proofs.Running

/-!
# The installation of the schema

What `ensure_schema` does when it runs alone: it returns exactly when the version in the schema
record, if there is one, is supported, and it writes nothing but definitions and this record.
-/

namespace ActiveGraphSurreal

open Library

variable {sdk : Sdk} {i : Nat} {db : Database} {ℓ : Type} (l : ℓ)

/-- The version of the schema record, if there is one, is supported. -/
def SchemaFits (supported : Int) (schema : Option SchemaRow) : Prop :=
  ∀ row ∈ schema, minSchemaVersion ≤ row.version ∧ row.version ≤ supported

/-! ### Definitions -/

variable (sdk i) in
lemma alone_define (ddl : Ddl) (db : Database) : ∃ defined db',
    alone sdk i (query (.define ddl) : Py ℓ Unit) l db = ((.ok (), l), db') ∧
      db'.tables = { db.tables with defined } ∧
      ∀ table, table ∈ db.tables.defined ∨ ddl = .table table → table ∈ defined := by
  have hexec : ∃ ws, (Stmt.define ddl).exec sdk db.tables = .ok ((), ws) ∧
      ∃ defined, (engine sdk).applyAll ws db.tables = { db.tables with defined } ∧
        ∀ table, table ∈ db.tables.defined ∨ ddl = .table table → table ∈ defined := by
    cases ddl with
    | table table =>
      refine ⟨_, rfl, ?_⟩
      split
      · next hmem =>
        refine ⟨db.tables.defined, rfl, ?_⟩
        rintro table' (h | h)
        · exact h
        · rw [← Ddl.table.inj h]
          exact hmem
      · refine ⟨table :: db.tables.defined, rfl, ?_⟩
        rintro table' (h | h)
        · exact List.mem_cons_of_mem _ h
        · rw [← Ddl.table.inj h]
          exact List.mem_cons_self ..
    | field table name type => exact ⟨[], rfl, db.tables.defined, rfl, by simp⟩
    | index table name fields isUnique => exact ⟨[], rfl, db.tables.defined, rfl, by simp⟩
  obtain ⟨ws, hexec, defined, htables, hdefined⟩ := hexec
  refine ⟨defined, _, alone_write hexec, ?_, hdefined⟩
  rw [tables_commit, htables]

variable (sdk i) in
/-- The definitions touch no row. -/
lemma alone_defineAll (statements : List Ddl) (db : Database) : ∃ defined db',
    alone sdk i (defineAll statements : Py ℓ Unit) l db = ((.ok (), l), db') ∧
      db'.tables = { db.tables with defined } ∧
      ∀ table, table ∈ db.tables.defined ∨ .table table ∈ statements → table ∈ defined := by
  induction statements generalizing db with
  | nil => exact ⟨db.tables.defined, db, rfl, rfl, by simp⟩
  | cons statement statements ih =>
    obtain ⟨first, db₁, hfirst, htables₁, hdefined₁⟩ := alone_define sdk i l statement db
    obtain ⟨rest, db₂, hrest, htables₂, hdefined₂⟩ := ih db₁
    refine ⟨rest, db₂, ?_, ?_, ?_⟩
    · unfold defineAll
      rw [alone_bind, hfirst, aloneThen_ok, hrest]
    · rw [htables₂, htables₁]
    · intro table htable
      apply hdefined₂
      rw [htables₁]
      rcases htable with hold | hnew
      · exact .inl (hdefined₁ table (.inl hold))
      · rcases List.mem_cons.mp hnew with hhead | htail
        · exact .inl (hdefined₁ table (.inr hhead.symm))
        · exact .inr htail

/-! ### The version -/

lemma assertSchemaVersion_ok {supported : Int} {row : SchemaRow} :
    assertSchemaVersion supported row = .ok () ↔
      minSchemaVersion ≤ row.version ∧ row.version ≤ supported := by
  unfold assertSchemaVersion
  rw [bind_eq_ok]
  simp only [raiseIf_eq_ok, exists_const, Int.not_lt]
  exact and_comm

lemma assertSchemaVersion_error {supported : Int} {row : SchemaRow}
    (h : ¬ (minSchemaVersion ≤ row.version ∧ row.version ≤ supported)) :
    ∃ e, assertSchemaVersion supported row = .error e := by
  cases hassert : assertSchemaVersion supported row with
  | error e => exact ⟨e, rfl⟩
  | ok u => exact absurd (assertSchemaVersion_ok.mp hassert) h

lemma alone_selectSchema (hdefined : .agSchema ∈ db.tables.defined) :
    alone sdk i (query .selectSchema : Py ℓ (Option SchemaRow)) l db =
      ((.ok db.tables.schema, l), db) := by
  apply alone_read
  simp [Stmt.exec, hdefined]

variable (sdk i db) in
/-- The first look at the record. -/
lemma alone_selectExistingSchema :
    alone sdk i (selectExistingSchema : Py ℓ (Option SchemaRow)) l db =
      ((.ok (if .agSchema ∈ db.tables.defined then db.tables.schema else none), l), db) := by
  unfold selectExistingSchema
  rw [alone_tryCatch]
  split
  · next hdefined => rw [alone_selectSchema l hdefined, aloneElse_ok, alone_pure]
  · next hnot =>
    have hrefused : Stmt.selectSchema.exec sdk db.tables =
        .error (sdk.error (.undefinedTable .agSchema)) := by
      simp [Stmt.exec, hnot]
    have hclass : (sdk.error (.undefinedTable .agSchema)).cls = .notFoundError := rfl
    rw [alone_refused hrefused, aloneElse_error, if_pos hclass, alone_pure]

lemma alone_installedSchema (supported : Int) (hdefined : .agSchema ∈ db.tables.defined) : ∃ db',
    alone sdk i (installedSchema supported : Py ℓ (Option SchemaRow)) l db =
      ((.ok (some (db.tables.schema.getD ⟨supported, sdk.now⟩)), l), db') ∧
      db'.tables =
        { db.tables with schema := some (db.tables.schema.getD ⟨supported, sdk.now⟩) } := by
  unfold installedSchema
  rw [alone_bind, alone_selectSchema l hdefined, aloneThen_ok]
  cases hschema : db.tables.schema with
  | some row =>
    refine ⟨db, by rw [alone_pure]; rfl, ?_⟩
    rw [Option.getD_some, ← hschema]
  | none =>
    have hcreate : (Stmt.createSchema ⟨supported, sdk.now⟩).exec sdk db.tables =
        .ok ((), [.schema ⟨supported, sdk.now⟩]) := by
      simp [Stmt.exec, hschema]
    let db' := (engine sdk).commit [.schema ⟨supported, sdk.now⟩] db
    have htables : db'.tables = { db.tables with schema := some ⟨supported, sdk.now⟩ } :=
      tables_commit sdk
    have hdefined' : .agSchema ∈ db'.tables.defined := by
      rw [htables]
      exact hdefined
    refine ⟨db', ?_, htables⟩
    unfold createSchemaRecord
    rw [alone_tryElse, alone_bind, alone_read sdk i l db rfl, aloneThen_ok, alone_write hcreate,
      aloneElse_ok, alone_selectSchema l hdefined', htables]
    rfl

/-- The record that is there after the installation. -/
def installedRow (sdk : Sdk) (supported : Int) (schema : Option SchemaRow) : SchemaRow :=
  { schema.getD ⟨supported, sdk.now⟩ with version := supported }

variable (sdk i) in
lemma alone_upgradeSchema {supported : Int} {row : SchemaRow} (hrow : db.tables.schema = some row)
    (hfits : minSchemaVersion ≤ row.version ∧ row.version ≤ supported) : ∃ db',
    alone sdk i (upgradeSchema supported row : Py ℓ Int) l db = ((.ok supported, l), db') ∧
      db'.tables = { db.tables with schema := some { row with version := supported } } := by
  have hassert := assertSchemaVersion_ok.mpr hfits
  unfold upgradeSchema
  rw [alone_bind, alone_lift, hassert, aloneThen_ok]
  split
  · have hupdate : (Stmt.updateSchemaVersion supported).exec sdk db.tables =
        .ok ((), [.schema { row with version := supported }]) := by
      simp [Stmt.exec, hrow]
    let db' := (engine sdk).commit [.schema { row with version := supported }] db
    have htables : db'.tables = { db.tables with schema := some { row with version := supported } } :=
      tables_commit sdk
    refine ⟨db', ?_, htables⟩
    rw [alone_bind, alone_write hupdate, aloneThen_ok, alone_pure]
  · next hcurrent =>
    refine ⟨db, by rw [alone_pure], ?_⟩
    have hversion : row.version = supported := by omega
    rw [← hversion, ← hrow]

variable (sdk i) in
/-- What follows the first look at the record. -/
lemma alone_definitions (supported : Int) (db : Database) : ∃ (defined : List Table) (db₂ : Database),
    db₂.tables = { db.tables with
      defined, schema := some (db.tables.schema.getD ⟨supported, sdk.now⟩) } ∧
    alone sdk i (do
      defineAll schemaStatements
      match ← installedSchema supported with
      | none => throw missingSchema
      | some current => upgradeSchema supported current : Py ℓ Int) l db =
      alone sdk i (upgradeSchema supported (db.tables.schema.getD ⟨supported, sdk.now⟩)) l db₂ := by
  obtain ⟨defined, db₁, hdefine, htables₁, hkept⟩ := alone_defineAll sdk i l schemaStatements db
  have hdefined₁ : .agSchema ∈ db₁.tables.defined := by
    rw [htables₁]
    exact hkept _ (.inr (List.mem_cons_self ..))
  have hinstall : ∃ db', alone sdk i (installedSchema supported : Py ℓ (Option SchemaRow)) l db₁ =
      ((.ok (some (db₁.tables.schema.getD ⟨supported, sdk.now⟩)), l), db') ∧
      db'.tables =
        { db₁.tables with schema := some (db₁.tables.schema.getD ⟨supported, sdk.now⟩) } :=
    alone_installedSchema l supported hdefined₁
  obtain ⟨db₂, hinstall, htables₂⟩ := hinstall
  have hschema : db₁.tables.schema = db.tables.schema := by rw [htables₁]
  rw [hschema] at hinstall htables₂
  refine ⟨defined, db₂, ?_, ?_⟩
  · rw [htables₂, htables₁]
  · rw [alone_bind, hdefine, aloneThen_ok, alone_bind, hinstall, aloneThen_ok]

variable (sdk i) in
/-- The version of the record that the first look finds is asserted before the definitions. -/
lemma alone_installSchema (supported : Int) (db : Database) :
    alone sdk i (installSchema supported : Py ℓ Int) l db =
      match (if .agSchema ∈ db.tables.defined then db.tables.schema else none) with
      | some existing => aloneThen sdk i (fun _ => do
          defineAll schemaStatements
          match ← installedSchema supported with
          | none => throw missingSchema
          | some current => upgradeSchema supported current)
          ((assertSchemaVersion supported existing, l), db)
      | none => alone sdk i (do
          defineAll schemaStatements
          match ← installedSchema supported with
          | none => throw missingSchema
          | some current => upgradeSchema supported current) l db := by
  unfold installSchema
  rw [alone_bind, alone_selectExistingSchema, aloneThen_ok]
  generalize (if .agSchema ∈ db.tables.defined then db.tables.schema else none) = existing
  cases existing with
  | none => rfl
  | some existing =>
    dsimp only
    rw [alone_bind]
    exact congrArg (aloneThen sdk i _) (alone_lift sdk i l db _)

variable (sdk i db) in
/-- An installation over a record of a supported version, or over none. -/
theorem alone_ensureSchema {supported : Int} (hmin : minSchemaVersion ≤ supported)
    (h : SchemaFits supported db.tables.schema) : ∃ (defined : List Table) (db' : Database),
    alone sdk i (ensureSchema supported false : Py ℓ Int) l db = ((.ok supported, l), db') ∧
      db'.tables = { db.tables with
        defined, schema := some (installedRow sdk supported db.tables.schema) } := by
  obtain ⟨defined, db₂, htables₂, hrest⟩ := alone_definitions sdk i l supported db
  have hfits : minSchemaVersion ≤ (db.tables.schema.getD ⟨supported, sdk.now⟩).version ∧
      (db.tables.schema.getD ⟨supported, sdk.now⟩).version ≤ supported := by
    cases hschema : db.tables.schema with
    | none => exact ⟨hmin, le_rfl⟩
    | some row => exact h row hschema
  have hrow : db₂.tables.schema = some (db.tables.schema.getD ⟨supported, sdk.now⟩) := by
    rw [htables₂]
  obtain ⟨db', hupgrade, htables'⟩ := alone_upgradeSchema sdk i l hrow hfits
  refine ⟨defined, db', ?_, ?_⟩
  · have hinstall : ensureSchema supported false = (installSchema supported : Py ℓ Int) := rfl
    rw [hinstall, alone_installSchema]
    split
    · next existing hexisting =>
      have hmem : existing ∈ db.tables.schema := (Option.ite_none_right_eq_some.mp hexisting).2
      rw [assertSchemaVersion_ok.mpr (h existing hmem), aloneThen_ok, hrest, hupgrade]
    · rw [hrest, hupgrade]
  · rw [htables', htables₂]
    rfl

variable (sdk i db) in
/-- Over a record of another version the installation raises. -/
theorem alone_ensureSchema_error {supported : Int} (h : ¬ SchemaFits supported db.tables.schema) :
    ∃ (e : PyErr) (defined : List Table) (db' : Database),
      alone sdk i (ensureSchema supported false : Py ℓ Int) l db = ((.error e, l), db') ∧
        db'.tables = { db.tables with defined } := by
  have hrecord : ∃ row ∈ db.tables.schema,
      ¬ (minSchemaVersion ≤ row.version ∧ row.version ≤ supported) := by
    unfold SchemaFits at h
    push Not at h
    simpa using h
  obtain ⟨row, hrow, hbad⟩ := hrecord
  obtain ⟨e, he⟩ := assertSchemaVersion_error hbad
  have hinstall : ensureSchema supported false = (installSchema supported : Py ℓ Int) := rfl
  have hschema : db.tables.schema = some row := Option.mem_def.mp hrow
  rw [hinstall, alone_installSchema, hschema]
  by_cases hdefined : .agSchema ∈ db.tables.defined
  · rw [if_pos hdefined]
    refine ⟨e, db.tables.defined, db, ?_, rfl⟩
    dsimp only
    rw [he, aloneThen_error]
  · obtain ⟨defined, db₂, htables₂, hrest⟩ := alone_definitions sdk i l supported db
    rw [if_neg hdefined, hrest, hschema, Option.getD_some]
    refine ⟨e, defined, db₂, ?_, ?_⟩
    · unfold upgradeSchema
      rw [alone_bind, alone_lift, he, aloneThen_error]
    · rw [htables₂, hschema, Option.getD_some, ← hschema]

end ActiveGraphSurreal
