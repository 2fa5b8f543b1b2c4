import ActiveGraphSurreal.Proofs.Readers

/-!
# Opening a handle

The constructor installs the schema, makes sure of the run record and takes over the head
that it has verified.
-/

namespace ActiveGraphSurreal

open Library Setting

set_option linter.unusedSectionVars false

variable {F X : Type} [Json.ScalarText F] {env : Env F X} {sdk : Sdk} {S : Setting env}

/-- What stays over the own commits of a constructor, too. -/
structure Keeps (S : Setting env) (s s' : Database) : Prop where
  past : Past s.tables s'.tables
  events : S.alone → ∀ g, (s'.tables.events g : List (LogEvent F)) = s.tables.events g

lemma Keeps.trans {a b c : Database} (h : Keeps S a b) (h' : Keeps S b c) : Keeps S a c := by
  refine ⟨past_trans _ _ _ h.past h'.past, fun halone g => ?_⟩
  rw [h'.events halone g, h.events halone g]

lemma keeps_of_drift {s s' : Database} (hd : S.drift s s') : Keeps S s s' := by
  refine ⟨S.drift_past _ _ hd, fun halone g => ?_⟩
  rw [(S.drift_alone halone _ _ hd).tables]

lemma keeps_of_tables {s s' : Database} (ht : s'.tables = s.tables) : Keeps S s s' :=
  ⟨ht ▸ past_refl _, fun _ g => by rw [ht]⟩

lemma keeps_refl (s : Database) : Keeps S s s := keeps_of_tables rfl

/-- A run record stays. -/
lemma present_of_past {t t' : Tables} {g : String × String} (h : (t.ledger env g).run ≠ none)
    (hpast : Past t t') : (t'.ledger env g).run ≠ none := by
  obtain ⟨row, hrow⟩ := Option.ne_none_iff_exists'.mp h
  obtain ⟨key, hkey, hlookup⟩ := recordAt_eq_some hrow
  have hsome := hpast.run key (by rw [hlookup]; rfl)
  change recordAt t'.run (runKey env g) ≠ none
  rw [hkey]
  exact Option.isSome_iff_ne_none.mp hsome

/-! ### The schema -/

def Write.OfSchema : Write → Prop
  | .define _ => True
  | .schema row => row.version = schemaVersion
  | _ => False

lemma Write.OfSchema.proper {w : Write} (h : w.OfSchema) : w.Proper env := by
  cases w with
  | define table => trivial
  | schema row => exact h
  | _ => exact h.elim

lemma ledger_ofSchema {ws : List Write} (hws : ∀ w ∈ ws, w.OfSchema) (t : Tables)
    (g : String × String) : ((engine sdk).applyAll ws t).ledger env g = t.ledger env g := by
  rw [ledger_applyAll]
  induction ws with
  | nil => rfl
  | cons w ws ih =>
    have hw : w.OfSchema := hws w (by simp)
    have hsame : (t.ledger env g).write env g w = t.ledger env g := by
      cases w with
      | define table => rfl
      | schema row => rfl
      | _ => exact False.elim hw
    rw [List.foldl_cons, hsame]
    exact ih fun w' hw' => hws w' (by simp [hw'])

lemma lawful_ofSchema {ws : List Write} (hws : ∀ w ∈ ws, w.OfSchema) {t : Tables}
    (hgood : Good env t) : (guarded env).Lawful (engine sdk) ws t :=
  lawful_of_same hgood (fun w hw => (hws w hw).proper) (ledger_ofSchema hws t)

lemma keeps_ofSchema {ws : List Write} (hws : ∀ w ∈ ws, w.OfSchema) {s s' : Database}
    (hc : Consistent env s) (hc' : Consistent env s')
    (ht : s'.tables = (engine sdk).applyAll ws s.tables) : Keeps S s s' := by
  have hproper : Keyed env ((engine sdk).applyAll ws s.tables) ∧
      Past s.tables ((engine sdk).applyAll ws s.tables) :=
    proper_applyAll sdk (fun w hw => (hws w hw).proper) hc.1.keyed
  refine ⟨ht ▸ hproper.2, fun _ g => ?_⟩
  apply events_congr hc'.1 hc.1
  rw [ht]
  exact ledger_ofSchema hws _ g

/-- A statement on the schema. -/
structure Stmt.OfSchema (sdk : Sdk) (st : Stmt) : Prop where
  writes : ∀ t r ws, st.exec sdk t = .ok (r, ws) → ∀ w ∈ ws, w.OfSchema
  fails : ∀ t e, st.exec sdk t = .error e → e.cls.IsSdk

lemma sdk_error (f : SdkFailure) : (sdk.error f).cls.IsSdk := by
  cases f <;> trivial

section schema

variable {α : Type} {Q : Hist → α → Database → Prop} {h : Hist} {s : Database}

lemma wp_ofSchema {st : Stmt} {k : Answer (.query st) → Prog Call Answer α}
    (hst : st.OfSchema sdk) (hc : Consistent env s)
    (hallowed : ∀ st ws t, (∀ w ∈ ws, w.OfSchema) → S.allowed (.query st) ws t)
    (hk : ∀ s₁ r s₂, Keeps S s s₂ → Consistent env s₁ → Consistent env s₂ →
      (∀ e, r = .error e → e.cls.IsSdk) →
      (∀ a, r = .ok a → ∃ ws, st.exec sdk s₁.tables = .ok (a, ws) ∧
        s₂.tables = (engine sdk).applyAll ws s₁.tables) →
      S.Wp sdk Q (h ++ [⟨.query st, s₁, r, s₂⟩]) (k r) s₂) : S.Wp sdk Q h (.call (.query st) k) s := by
  apply wp_query hc
  · intro s₁ r ws _ hc₁ hexec
    have hws := hst.writes _ r ws hexec
    exact ⟨lawful_ofSchema hws hc₁.1, hallowed _ _ _ hws⟩
  · intro s₁ r s₂ hrely hc₁ hc₂ hran
    have hkeeps₁ : Keeps S s s₁ := keeps_of_drift (S.drift_rely _ _ hrely)
    cases hran with
    | @done r ws hexec ht =>
      have hkeeps := keeps_ofSchema (S := S) (hst.writes _ r ws hexec) hc₁ hc₂ ht
      apply hk s₁ _ s₂ (hkeeps₁.trans hkeeps) hc₁ hc₂
      · intro e he
        cases he
      · intro a ha
        obtain rfl := Except.ok.inj ha
        exact ⟨ws, hexec, ht⟩
    | failed hexec ht =>
      have hkeeps : Keeps S s₁ s₂ := keeps_of_tables ht
      apply hk s₁ _ s₂ (hkeeps₁.trans hkeeps) hc₁ hc₂
      · intro e he
        obtain rfl := Except.error.inj he
        exact hst.fails _ _ hexec
      · intro a ha
        cases ha
    | lost he hlost ht =>
      have hkeeps : Keeps S s₁ s₂ := by
        rcases ht with ht | ⟨-, r, ws, hexec, ht⟩
        · exact keeps_of_tables ht
        · exact keeps_ofSchema (hst.writes _ r ws hexec) hc₁ hc₂ ht
      apply hk s₁ _ s₂ (hkeeps₁.trans hkeeps) hc₁ hc₂
      · intro e he'
        obtain rfl := Except.error.inj he'
        exact he
      · intro a ha
        cases ha

lemma ofSchema_connect : Stmt.connect.OfSchema sdk := by
  constructor
  · intro t r ws h
    cases h
    simp
  · intro t e h
    cases h

lemma ofSchema_selectSchema : Stmt.selectSchema.OfSchema sdk := by
  constructor
  · intro t r ws h
    change (if _ then .ok (t.schema, []) else .error _ : Except PyErr _) = _ at h
    split at h
    · cases h
      simp
    · cases h
  · intro t e h
    change (if _ then .ok (t.schema, []) else .error _ : Except PyErr _) = _ at h
    split at h
    · cases h
    · obtain rfl := Except.error.inj h
      exact sdk_error _

lemma ofSchema_define (ddl : Ddl) : (Stmt.define ddl).OfSchema sdk := by
  cases ddl with
  | table table =>
    constructor
    · intro t r ws h w hw
      cases h
      split at hw
      · cases hw
      · rw [List.mem_singleton.mp hw]
        trivial
    · intro t e h
      cases h
  | field table name type =>
    constructor
    · intro t r ws h
      cases h
      simp
    · intro t e h
      cases h
  | index table name fields isUnique =>
    constructor
    · intro t r ws h
      cases h
      simp
    · intro t e h
      cases h

lemma ofSchema_timeNow : Stmt.timeNow.OfSchema sdk := by
  constructor
  · intro t r ws h
    cases h
    simp
  · intro t e h
    cases h

lemma ofSchema_createSchema (installedAt : String) :
    (Stmt.createSchema ⟨schemaVersion, installedAt⟩).OfSchema sdk := by
  constructor
  · intro t r ws h w hw
    change (if _ then .error _ else .ok _ : Except PyErr _) = _ at h
    split at h
    · cases h
    · cases h
      rw [List.mem_singleton.mp hw]
      rfl
  · intro t e h
    change (if _ then .error _ else .ok _ : Except PyErr _) = _ at h
    split at h
    · obtain rfl := Except.error.inj h
      exact sdk_error _
    · cases h

end schema

/-! ### Installing it -/

section install

variable {ℓ α : Type} {l : ℓ} {P : α → Prop} {h : Hist} {s : Database}

def Result (P : α → Prop) : Except PyErr α → Prop
  | .ok a => P a
  | .error e => e.cls.IsSdk

/-- The handle is as before, and what was raised is an error of the client library. -/
def Installs (env : Env F X) (S : Setting env) (l : ℓ) (P : α → Prop) (s : Database) (_ : Hist)
    (x : Except PyErr α × ℓ) (s' : Database) : Prop :=
  x.2 = l ∧ Consistent env s' ∧ Keeps S s s' ∧ Result P x.1

lemma wp_installs_from {p : Prog Call Answer (Except PyErr α × ℓ)} {s₁ : Database}
    (hk : Keeps S s s₁) (hp : S.Wp sdk (Installs env S l P s₁) h p s₁) :
    S.Wp sdk (Installs env S l P s) h p s₁ :=
  wp_mono hp fun _ _ _ hx => ⟨hx.1, hx.2.1, hk.trans hx.2.2.1, hx.2.2.2⟩

lemma wp_queryInstalls {st : Stmt} {f : st.Reply → Py ℓ α} (hst : st.OfSchema sdk)
    (hc : Consistent env s) (hallowed : ∀ st ws t, (∀ w ∈ ws, w.OfSchema) → S.allowed (.query st) ws t)
    (hok : ∀ h' s₁ s₂ a ws, Consistent env s₁ → Consistent env s₂ →
      st.exec sdk s₁.tables = .ok (a, ws) → s₂.tables = (engine sdk).applyAll ws s₁.tables →
      S.Wp sdk (Installs env S l P s₂) h' (f a l) s₂) :
    S.Wp sdk (Installs env S l P s) h ((query st >>= f) l) s := by
  rw [wp_bind]
  apply wp_ofSchema hst hc hallowed
  intro s₁ r s₂ hk hc₁ hc₂ herror hdone
  cases r with
  | error e =>
    rw [wp_done, wp_andThen_error]
    exact ⟨rfl, hc₂, hk, herror e rfl⟩
  | ok a =>
    obtain ⟨ws, hexec, ht⟩ := hdone a rfl
    rw [wp_done, wp_andThen_ok]
    exact wp_installs_from hk (hok _ s₁ s₂ a ws hc₁ hc₂ hexec ht)

/-- A part of the installation and what follows it. -/
lemma wp_thenInstalls {β : Type} {P' : β → Prop} {m : Py ℓ β} {f : β → Py ℓ α}
    (hm : S.Wp sdk (Installs env S l P' s) h (m l) s)
    (hf : ∀ h' s' b, Consistent env s' → P' b → S.Wp sdk (Installs env S l P s') h' (f b l) s') :
    S.Wp sdk (Installs env S l P s) h ((m >>= f) l) s := by
  rw [wp_bind]
  apply wp_mono hm
  rintro h' ⟨r, l'⟩ s' ⟨hl, hc', hk, hr⟩
  obtain rfl : l' = l := hl
  cases r with
  | error e =>
    rw [wp_andThen_error]
    exact ⟨rfl, hc', hk, hr⟩
  | ok b =>
    rw [wp_andThen_ok]
    exact wp_installs_from hk (hf h' s' b hc' hr)

lemma wp_defineAll (hallowed : ∀ st ws t, (∀ w ∈ ws, w.OfSchema) → S.allowed (.query st) ws t)
    (statements : List Ddl) (hc : Consistent env s) :
    S.Wp sdk (Installs env S l (fun _ => True) s) h (defineAll statements l) s := by
  induction statements generalizing h s with
  | nil => exact ⟨rfl, hc, keeps_refl s, trivial⟩
  | cons statement statements ih =>
    apply wp_queryInstalls (ofSchema_define statement) hc hallowed
    intro h' s₁ s₂ _ _ _ hc₂ _ _
    exact ih hc₂

lemma exec_selectSchema {t : Tables} {a : Option SchemaRow} {ws : List Write}
    (h : Stmt.selectSchema.exec sdk t = .ok (a, ws)) : a = t.schema ∧ ws = [] := by
  change (if _ then .ok (t.schema, []) else .error _ : Except PyErr _) = _ at h
  split at h
  · obtain ⟨rfl, rfl⟩ := Prod.mk.inj (Except.ok.inj h)
    exact ⟨rfl, rfl⟩
  · cases h

/-- A schema record of the version of the provider. -/
def Supported (row : SchemaRow) : Prop := row.version = schemaVersion

lemma Supported.assert {row : SchemaRow} (h : Supported row) :
    assertSchemaVersion schemaVersion row = .ok () := by
  unfold Supported at h
  simp [assertSchemaVersion, raiseIf, h, bind, Except.bind, schemaVersion, minSchemaVersion]

/-- A schema record that is there is read and is of the version of the provider. -/
lemma wp_selectSchema {β : Type} {Q : Hist → β → Database → Prop}
    {k : Answer (.query .selectSchema) → Prog Call Answer β} (hc : Consistent env s)
    (hallowed : ∀ st ws t, (∀ w ∈ ws, w.OfSchema) → S.allowed (.query st) ws t)
    (herror : ∀ h' s' e, Consistent env s' → Keeps S s s' → e.cls.IsSdk →
      S.Wp sdk Q h' (k (.error e)) s')
    (hok : ∀ h' s' a, Consistent env s' → Keeps S s s' → (∀ row, a = some row → Supported row) →
      (s.tables.schema.isSome → a.isSome) → S.Wp sdk Q h' (k (.ok a)) s') :
    S.Wp sdk Q h (.call (.query .selectSchema) k) s := by
  apply wp_ofSchema ofSchema_selectSchema hc hallowed
  intro s₁ r s₂ hk hc₁ hc₂ hfails hdone
  cases r with
  | error e => exact herror _ s₂ e hc₂ hk (hfails e rfl)
  | ok a =>
    obtain ⟨ws, hexec, ht⟩ := hdone a rfl
    obtain ⟨rfl, rfl⟩ := exec_selectSchema hexec
    rw [Engine.applyAll_nil] at ht
    apply hok _ s₂ _ hc₂ hk
    · intro row hrow
      exact hc₁.1.keyed.schema row hrow
    · rw [← ht]
      exact hk.past.schema

lemma wp_selectExistingSchema (hc : Consistent env s)
    (hallowed : ∀ st ws t, (∀ w ∈ ws, w.OfSchema) → S.allowed (.query st) ws t) :
    S.Wp sdk (Installs env S l (fun a => ∀ row, a = some row → Supported row) s) h
      (selectExistingSchema l) s := by
  unfold selectExistingSchema
  rw [wp_tryCatch]
  apply wp_selectSchema hc hallowed
  · intro h' s' e hc' hk he
    rw [wp_done, wp_orElse_error]
    split
    · exact ⟨rfl, hc', hk, fun row hrow => by cases hrow⟩
    · exact ⟨rfl, hc', hk, he⟩
  · intro h' s' a hc' hk hrow _
    rw [wp_done, wp_orElse_ok]
    exact ⟨rfl, hc', hk, hrow⟩

/-- The creation of the schema record, or the record of who has won. -/
lemma wp_createSchemaRecord (hc : Consistent env s)
    (hallowed : ∀ st ws t, (∀ w ∈ ws, w.OfSchema) → S.allowed (.query st) ws t) :
    S.Wp sdk (Installs env S l (fun a => ∃ row, a = some row ∧ Supported row) s) h
      (createSchemaRecord schemaVersion l) s := by
  have hbody : S.Wp sdk (fun _ x s' => x.2 = l ∧ Consistent env s' ∧ Keeps S s s' ∧
      ((∃ e, x.1 = .error e ∧ e.cls.IsSdk) ∨ x.1 = .ok () ∧ s'.tables.schema.isSome)) h
      ((do
        let installedAt ← query .timeNow
        query (.createSchema ⟨schemaVersion, installedAt⟩) : Py ℓ Unit) l) s := by
    rw [wp_bind]
    apply wp_ofSchema ofSchema_timeNow hc hallowed
    intro s₁ r s₂ hk hc₁ hc₂ herror hdone
    cases r with
    | error e =>
      rw [wp_done, wp_andThen_error]
      exact ⟨rfl, hc₂, hk, .inl ⟨e, rfl, herror e rfl⟩⟩
    | ok installedAt =>
      rw [wp_done, wp_andThen_ok]
      apply wp_ofSchema (ofSchema_createSchema installedAt) hc₂ hallowed
      intro s₃ r s₄ hk' hc₃ hc₄ herror hdone
      rw [wp_done]
      refine ⟨rfl, hc₄, hk.trans hk', ?_⟩
      cases r with
      | error e => exact .inl ⟨e, rfl, herror e rfl⟩
      | ok a =>
        obtain ⟨ws, hexec, ht⟩ := hdone a rfl
        right
        refine ⟨rfl, ?_⟩
        change (if _ then .error _ else .ok ((), [Write.schema _]) : Except PyErr _) = _ at hexec
        split at hexec
        · cases hexec
        · obtain ⟨-, rfl⟩ := Prod.mk.inj (Except.ok.inj hexec)
          rw [ht]
          rfl
  unfold createSchemaRecord
  rw [wp_tryElse]
  apply wp_mono hbody
  rintro h' ⟨r, l'⟩ s' ⟨hl, hc', hk, hr⟩
  obtain rfl : l' = l := hl
  rcases hr with ⟨e, hr, he⟩ | ⟨hr, hschema⟩
  · obtain rfl : r = .error e := hr
    rw [wp_branch_error, wp_bind]
    apply wp_selectSchema hc' hallowed
    · intro h₂ s₂ e₂ hc₂ hk₂ he₂
      rw [wp_done, wp_andThen_error]
      exact ⟨rfl, hc₂, hk.trans hk₂, he₂⟩
    · intro h₂ s₂ a hc₂ hk₂ hrow _
      rw [wp_done, wp_andThen_ok, wp_bind, wp_lift, raiseIf]
      cases a with
      | none => exact ⟨rfl, hc₂, hk.trans hk₂, he⟩
      | some row => exact ⟨rfl, hc₂, hk.trans hk₂, row, rfl, hrow row rfl⟩
  · obtain rfl : r = .ok () := hr
    rw [wp_branch_ok]
    apply wp_selectSchema hc' hallowed
    · intro h₂ s₂ e₂ hc₂ hk₂ he₂
      exact ⟨rfl, hc₂, hk.trans hk₂, he₂⟩
    · intro h₂ s₂ a hc₂ hk₂ hrow hsome
      obtain ⟨row, rfl⟩ := Option.isSome_iff_exists.mp (hsome hschema)
      exact ⟨rfl, hc₂, hk.trans hk₂, row, rfl, hrow row rfl⟩

lemma wp_installedSchema (hc : Consistent env s)
    (hallowed : ∀ st ws t, (∀ w ∈ ws, w.OfSchema) → S.allowed (.query st) ws t) :
    S.Wp sdk (Installs env S l (fun a => ∃ row, a = some row ∧ Supported row) s) h
      (installedSchema schemaVersion l) s := by
  unfold installedSchema
  rw [wp_bind]
  apply wp_selectSchema hc hallowed
  · intro h' s' e hc' hk he
    rw [wp_done, wp_andThen_error]
    exact ⟨rfl, hc', hk, he⟩
  · intro h' s' a hc' hk hrow _
    rw [wp_done, wp_andThen_ok]
    apply wp_installs_from hk
    cases a with
    | none => exact wp_createSchemaRecord hc' hallowed
    | some row => exact ⟨rfl, hc', keeps_refl s', row, rfl, hrow row rfl⟩

lemma wp_definitions (hc : Consistent env s)
    (hallowed : ∀ st ws t, (∀ w ∈ ws, w.OfSchema) → S.allowed (.query st) ws t) :
    S.Wp sdk (Installs env S l (fun _ => True) s) h ((do
      defineAll schemaStatements
      match ← installedSchema schemaVersion with
      | none => throw missingSchema
      | some current => upgradeSchema schemaVersion current : Py ℓ Int) l) s := by
  apply wp_thenInstalls (wp_defineAll hallowed schemaStatements hc)
  intro h₁ s₁ _ hc₁ _
  apply wp_thenInstalls (wp_installedSchema hc₁ hallowed)
  rintro h₂ s₂ a hc₂ ⟨row, rfl, hrow⟩
  unfold upgradeSchema
  have hversion : ¬ row.version < schemaVersion := by
    unfold Supported at hrow
    omega
  simp only [wp_bind, wp_lift, hrow.assert, wp_andThen_ok, if_neg hversion, wp_pure]
  exact ⟨rfl, hc₂, keeps_refl s₂, trivial⟩

/-- Among providers of one version, the schema check raises no error of its own. -/
theorem wp_ensureSchema (hc : Consistent env s)
    (hallowed : ∀ st ws t, (∀ w ∈ ws, w.OfSchema) → S.allowed (.query st) ws t) :
    S.Wp sdk (Installs env S l (fun _ => True) s) h (ensureSchema schemaVersion false l) s := by
  change S.Wp sdk _ h (installSchema schemaVersion l) s
  unfold installSchema
  apply wp_thenInstalls (wp_selectExistingSchema hc hallowed)
  intro h₁ s₁ existing hc₁ hexisting
  cases existing with
  | none => exact wp_definitions hc₁ hallowed
  | some row =>
    have hassert : S.Wp sdk (Installs env S l (fun _ => True) s₁) h₁
        ((lift (assertSchemaVersion schemaVersion row) : Py ℓ Unit) l) s₁ := by
      rw [wp_lift, (hexisting row rfl).assert]
      exact ⟨rfl, hc₁, keeps_refl s₁, trivial⟩
    exact wp_thenInstalls hassert fun _ _ _ hc₂ _ => wp_definitions hc₂ hallowed

end install

/-! ### The run record -/

lemma recordKeyBytes_error {parts : List String} {e : PyErr} (h : recordKeyBytes parts = .error e) :
    e = ⟨.overflowError, "int too big to convert"⟩ := by
  induction parts with
  | nil => cases h
  | cons part parts ih =>
    rcases bind_eq_error.mp h with hlength | ⟨length, -, hrest⟩
    · unfold toBytes at hlength
      split at hlength
      · cases hlength
      · exact (Except.error.inj hlength).symm
    · rcases bind_eq_error.mp hrest with hparts | ⟨rest, -, hdone⟩
      · exact ih hparts
      · cases hdone

lemma recordId_error {sha256 : List UInt8 → String} {table : Table} {parts : List String}
    {e : PyErr} (h : recordId sha256 table parts = .error e) :
    e = ⟨.overflowError, "int too big to convert"⟩ := by
  rcases bind_eq_error.mp h with hkey | ⟨key, -, hdone⟩
  · rcases bind_eq_error.mp hkey with hbytes | ⟨bytes, -, hdone⟩
    · exact recordKeyBytes_error hbytes
    · cases hdone
  · cases hdone

/-- The creation of a run record for a run without one. -/
structure Creates (env : Env F X) (sdk : Sdk) (g : String × String) (ws : List Write) (t : Tables) :
    Prop where
  absent : (t.ledger env g).run = none
  move : Move env t ((engine sdk).applyAll ws t) g ([] : List (LogEvent F))

section run

variable {h : Hist} {s : Database} {store : EventStore}

lemma exec_createRun {t : Tables} {record : RecordId .agRun} {content : RunRow}
    {r : Unit} {ws : List Write} (hexec : (Stmt.createRun record content).exec sdk t = .ok (r, ws)) :
    t.run.lookup record.key = none ∧ ws = [.run record.key (some content)] := by
  change create sdk .agRun "ag_run_scope_run" t.run record.key (runClash content)
    (.run record.key (some content)) = _ at hexec
  unfold create at hexec
  split at hexec
  · cases hexec
  · next hnone =>
    split at hexec
    · cases hexec
    · obtain ⟨-, rfl⟩ := Prod.mk.inj (Except.ok.inj hexec)
      exact ⟨by simpa using hnone, rfl⟩

lemma exec_createRun_error {t : Tables} {record : RecordId .agRun} {content : RunRow} {e : PyErr}
    (hexec : (Stmt.createRun record content).exec sdk t = .error e) : e.cls.IsSdk := by
  change create sdk .agRun "ag_run_scope_run" t.run record.key (runClash content)
    (.run record.key (some content)) = _ at hexec
  unfold create at hexec
  split at hexec
  · obtain rfl := Except.error.inj hexec
    exact sdk_error _
  · split at hexec
    · obtain rfl := Except.error.inj hexec
      exact sdk_error _
    · cases hexec

lemma creates_of_exec (hsha : CollisionFree env) {t : Tables} (hgood : Good env t)
    {g : String × String} {record : RecordId .agRun} {content : RunRow} {r : Unit}
    {ws : List Write} (hkey : runKey env g = .ok record)
    (hhead : Ledger.HeadOf env g ([] : List (LogEvent F)) content)
    (hexec : (Stmt.createRun record content).exec sdk t = .ok (r, ws)) :
    Creates env sdk g ws t ∧ (guarded env).Lawful (engine sdk) ws t := by
  obtain ⟨hnone, rfl⟩ := exec_createRun hexec
  have hrun : (t.ledger env g).run = none := by
    unfold Tables.ledger recordAt
    rw [hkey]
    exact hnone
  have hmove := create_move sdk hsha hkey (hgood.absent hrun) hhead
  refine ⟨⟨hrun, hmove⟩, lawful_of_move hgood ?_ ?_ hmove⟩
  · intro w hw
    rw [List.mem_singleton.mp hw]
    exact ⟨content, rfl, by rw [hhead.scope, hhead.runId]; exact hkey⟩
  · rw [guardOf_eq hkey]
    simp [Write.target]

lemma keeps_of_creates {g : String × String} {ws : List Write} {s' : Database}
    (hc : Consistent env s) (hc' : Consistent env s') (hcreates : Creates env sdk g ws s.tables)
    (hlawful : (guarded env).Lawful (engine sdk) ws s.tables)
    (ht : s'.tables = (engine sdk).applyAll ws s.tables) : Keeps S s s' := by
  refine ⟨ht ▸ hlawful.2.1, fun _ g' => ?_⟩
  by_cases hg : g' = g
  · rw [hg, ht, events_of_holds (ht ▸ hc'.1.keyed) hcreates.move.here,
      events_of_absent hc.1.keyed (hc.1.absent hcreates.absent)]
  · apply events_congr hc'.1 hc.1
    rw [ht]
    exact hcreates.move.others g' hg

/-- The creation of a run record and what follows it, also where it fails. -/
lemma wp_createRun {α : Type} {Q : Hist → α → Database → Prop} {content : RunRow}
    {k : Except PyErr Unit → Prog Call Answer α} (hsha : CollisionFree env)
    (hc : Consistent env s) (hkey : runKey env store.address = .ok store.runRecord)
    (hhead : Ledger.HeadOf env store.address ([] : List (LogEvent F)) content)
    (hallowed : ∀ st ws t, Good env t → Creates env sdk store.address ws t → S.allowed (.query st) ws t)
    (hok : ∀ h' s', Consistent env s' → Keeps S s s' →
      (s'.tables.ledger env store.address).run ≠ none → S.Wp sdk Q h' (k (.ok ())) s')
    (herror : ∀ h' s' e, Consistent env s' → Keeps S s s' → e.cls.IsSdk →
      S.Wp sdk Q h' (k (.error e)) s') :
    S.Wp sdk Q h (.call (.query (.createRun store.runRecord content)) k) s := by
  apply wp_query hc
  · intro s₁ r ws _ hc₁ hexec
    obtain ⟨hcreates, hlawful⟩ := creates_of_exec hsha hc₁.1 hkey hhead hexec
    exact ⟨hlawful, hallowed _ _ _ hc₁.1 hcreates⟩
  · intro s₁ r s₂ hrely hc₁ hc₂ hran
    have hk₁ : Keeps S s s₁ := keeps_of_drift (S.drift_rely _ _ hrely)
    have hkept : ∀ {r : Unit} {ws : List Write},
        (Stmt.createRun store.runRecord content).exec sdk s₁.tables = .ok (r, ws) →
        s₂.tables = (engine sdk).applyAll ws s₁.tables →
        Keeps S s s₂ ∧ (s₂.tables.ledger env store.address).run ≠ none := by
      intro r ws hexec ht
      obtain ⟨hcreates, hlawful⟩ := creates_of_exec hsha hc₁.1 hkey hhead hexec
      refine ⟨hk₁.trans (keeps_of_creates hc₁ hc₂ hcreates hlawful ht), ?_⟩
      obtain ⟨row, hrow, -⟩ := hcreates.move.here.run
      rw [ht, hrow]
      exact Option.some_ne_none row
    cases hran with
    | done hexec ht =>
      obtain ⟨hk, hpresent⟩ := hkept hexec ht
      exact hok _ s₂ hc₂ hk hpresent
    | failed hexec ht =>
      exact herror _ s₂ _ hc₂ (hk₁.trans (keeps_of_tables ht)) (exec_createRun_error hexec)
    | lost he hlost ht =>
      rcases ht with ht | ⟨-, r, ws, hexec, ht⟩
      · exact herror _ s₂ _ hc₂ (hk₁.trans (keeps_of_tables ht)) he
      · exact herror _ s₂ _ hc₂ (hkept hexec ht).1 he

variable (store) in
lemma wp_ensureRun (hsha : CollisionFree env) (hc : Consistent env s)
    (hkey : runKey env store.address = .ok store.runRecord) (now : String)
    (hallowed : ∀ st ws t, Good env t → Creates env sdk store.address ws t → S.allowed (.query st) ws t) :
    S.Wp sdk (fun h x s' => Installs env S store (fun _ => True) s h x s' ∧
      ∀ u, x.1 = .ok u → (s'.tables.ledger env store.address).run ≠ none) h
      (EventStore.ensureRun now store) s := by
  have herr : ∀ (h : Hist) (e : PyErr) (s' : Database), Consistent env s' → Keeps S s s' →
      e.cls.IsSdk → Installs env S store (fun _ : Unit => True) s h (.error e, store) s' ∧
        ∀ u : Unit, (.error e : Except PyErr Unit) = .ok u →
          (s'.tables.ledger env store.address).run ≠ none := by
    intro h e s' hc' hk he
    exact ⟨⟨rfl, hc', hk, he⟩, fun u hu => by cases hu⟩
  unfold EventStore.ensureRun
  rw [wp_bind, wp_get, wp_andThen_ok, wp_bind]
  apply wp_readRunRow hc hkey
  · intro s₁ hrely hc₁
    have hk₁ : Keeps S s s₁ := keeps_of_drift (S.drift_rely _ _ hrely)
    rw [wp_andThen_ok]
    cases hrun : (s₁.tables.ledger env store.address).run with
    | some row =>
      refine ⟨⟨rfl, hc₁, hk₁, trivial⟩, fun u _ => ?_⟩
      rw [hrun]
      exact Option.some_ne_none row
    | none =>
      simp only
      rw [wp_tryCatch]
      apply wp_createRun hsha hc₁ hkey ⟨rfl, rfl, rfl, rfl⟩ hallowed
      · intro h' s₂ hc₂ hk₂ hpresent
        exact ⟨⟨rfl, hc₂, hk₁.trans hk₂, trivial⟩, fun u _ => hpresent⟩
      · intro h' s₂ e hc₂ hk₂ he
        rw [wp_done, wp_orElse_error, wp_bind]
        apply wp_readRunRow hc₂ hkey
        · intro s₃ hrely₃ hc₃
          have hk₃ := (hk₁.trans hk₂).trans (keeps_of_drift (S.drift_rely _ _ hrely₃))
          rw [wp_andThen_ok, wp_lift, raiseIf]
          cases hrun₃ : (s₃.tables.ledger env store.address).run with
          | none => exact ⟨⟨rfl, hc₃, hk₃, he⟩, fun u hu => by cases hu⟩
          | some row => exact ⟨⟨rfl, hc₃, hk₃, trivial⟩, fun u _ => Option.some_ne_none row⟩
        · intro s₃ e₃ hrely₃ hc₃ he₃ _
          rw [wp_andThen_error]
          exact herr _ e₃ s₃ hc₃
            ((hk₁.trans hk₂).trans (keeps_of_drift (S.drift_rely _ _ hrely₃))) he₃
  · intro s₁ e hrely hc₁ he _
    rw [wp_andThen_error]
    exact herr _ e s₁ hc₁ (keeps_of_drift (S.drift_rely _ _ hrely)) he

/-! ### Run metadata -/

theorem wp_getRun (hc : Consistent env s)
    (hkey : runKey env store.address = .ok store.runRecord) :
    S.Wp sdk (fun _ x s' => Consistent env s' ∧ S.drift s s' ∧ x.2 = store) h
      (EventStore.getRun store) s := by
  unfold EventStore.getRun
  apply wp_ensureOpen
  · intro e _ _
    exact ⟨hc, S.drift_quiet _ _ (same_refl _), rfl⟩
  · intro _
    rw [wp_bind]
    apply wp_readRunRow hc hkey
    · intro s₁ hrely hc₁
      rw [wp_andThen_ok]
      cases (s₁.tables.ledger env store.address).run with
      | none => exact ⟨hc₁, S.drift_rely _ _ hrely, rfl⟩
      | some row => exact ⟨hc₁, S.drift_rely _ _ hrely, rfl⟩
    · intro s₁ e hrely hc₁ _ _
      rw [wp_andThen_error]
      exact ⟨hc₁, S.drift_rely _ _ hrely, rfl⟩

/-- A write to a run that leaves its list as it is. -/
def Describes (env : Env F X) (sdk : Sdk) (g : String × String) (ws : List Write) (t : Tables) :
    Prop := Move env t ((engine sdk).applyAll ws t) g (t.events g : List (LogEvent F))

lemma exec_mergeRun (record : RecordId .agRun) (patch : RunPatch) (t : Tables) :
    (Stmt.mergeRun record patch).exec sdk t = .ok (update t.run record.key patch.merge) := rfl

lemma describes_of_exec (hsha : CollisionFree env) {t : Tables} (hgood : Good env t)
    {g : String × String} {record : RecordId .agRun} {patch : RunPatch} {r : Unit}
    {ws : List Write} (hkey : runKey env g = .ok record)
    (hexec : (Stmt.mergeRun record patch).exec sdk t = .ok (r, ws)) (hne : ws ≠ []) :
    Describes env sdk g ws t ∧ (guarded env).Lawful (engine sdk) ws t := by
  rw [exec_mergeRun] at hexec
  unfold update at hexec
  cases hlookup : t.run.lookup record.key with
  | none =>
    rw [hlookup] at hexec
    obtain ⟨-, rfl⟩ := Prod.mk.inj (Except.ok.inj hexec)
    exact absurd rfl hne
  | some row =>
    rw [hlookup] at hexec
    obtain ⟨-, rfl⟩ := Prod.mk.inj (Except.ok.inj hexec)
    have hrun : (t.ledger env g).run = some row := by
      unfold Tables.ledger recordAt
      rw [hkey]
      exact hlookup
    obtain ⟨hholds, hhead⟩ := hgood.holds hrun
    have hmerged : Ledger.HeadOf env g (t.events g) (patch.merge row) :=
      ⟨hhead.scope, hhead.runId, hhead.nextSeq, hhead.headHash⟩
    have hmove := describe_move sdk hsha hkey hholds hmerged
    refine ⟨hmove, lawful_of_move hgood ?_ ?_ hmove⟩
    · intro w hw
      rw [List.mem_singleton.mp hw]
      exact ⟨_, rfl, by rw [hmerged.scope, hmerged.runId]; exact hkey⟩
    · rw [guardOf_eq hkey]
      simp [Write.target]

theorem wp_upsertRun (hsha : CollisionFree env) (hc : Consistent env s)
    (hkey : runKey env store.address = .ok store.runRecord) (patch : RunPatch) (createdAt : String)
    (hcreates : ∀ st ws t, Good env t → Creates env sdk store.address ws t → S.allowed (.query st) ws t)
    (hdescribes : ∀ st ws t, Good env t → Describes env sdk store.address ws t →
      S.allowed (.query st) ws t) :
    S.Wp sdk (fun _ x s' => Consistent env s' ∧ x.2 = store) h
      (EventStore.upsertRun patch createdAt store) s := by
  unfold EventStore.upsertRun
  rw [wp_bind, wp_get, wp_andThen_ok]
  apply wp_ensureOpen
  · intro e _ _
    exact ⟨hc, rfl⟩
  · intro _
    rw [wp_bind]
    apply wp_readRunRow hc hkey
    · intro s₁ hrely hc₁
      rw [wp_andThen_ok]
      cases (s₁.tables.ledger env store.address).run with
      | none =>
        apply wp_createRun hsha hc₁ hkey ⟨rfl, rfl, rfl, rfl⟩ hcreates
        · intro h' s' hc' _ _
          exact ⟨hc', rfl⟩
        · intro h' s' e hc' _ _
          exact ⟨hc', rfl⟩
      | some row =>
        simp only
        split
        · exact ⟨hc₁, rfl⟩
        · apply wp_call hc₁
          · rintro s₂ _ hc₂ ws hne (⟨st, r, hst, hexec⟩ | ⟨tx, hcommit, -⟩)
            · obtain rfl := DbCall.query.inj hst
              obtain ⟨hdescribes', hlawful⟩ := describes_of_exec hsha hc₂.1 hkey hexec hne
              exact ⟨hlawful, hdescribes _ _ _ hc₂.1 hdescribes'⟩
            · cases hcommit
          · intro s₂ r s₃ _ _ _ hc₃
            exact ⟨hc₃, rfl⟩
    · intro s₁ e hrely hc₁ _ _
      rw [wp_andThen_error]
      exact ⟨hc₁, rfl⟩

/-! ### The constructor -/

/-- Calls that do not read the rows of a run. -/
def NoRows (c : Call) : Prop := ∀ scope runId, c ≠ .query (.selectEvents scope runId)

lemma calls_query {ℓ : Type} {P : Call → Prop} {st : Stmt} (h : P (.query st)) :
    Method.Calls P (query st : Py ℓ st.Reply) := fun _ => ⟨h, fun _ => trivial⟩

lemma noRows_defineAll {ℓ : Type} (statements : List Ddl) :
    Method.Calls NoRows (defineAll statements : Py ℓ Unit) := by
  induction statements with
  | nil => exact Method.calls_pure ()
  | cons statement statements ih =>
    apply Method.Calls.bind
    · exact calls_query (by simp [NoRows])
    · exact fun _ => ih

lemma noRows_definitions {ℓ : Type} (supported : Int) :
    Method.Calls NoRows (do
      defineAll schemaStatements
      match ← installedSchema supported with
      | none => throw missingSchema
      | some current => upgradeSchema supported current : Py ℓ Int) := by
  have hselect : Method.Calls NoRows (query .selectSchema : Py ℓ _) :=
    calls_query (by simp [NoRows])
  have hcreate : Method.Calls NoRows (createSchemaRecord supported : Py ℓ _) := by
    apply Method.Calls.tryElse
    · apply Method.Calls.bind
      · exact calls_query (by simp [NoRows])
      · exact fun _ => calls_query (by simp [NoRows])
    · intro e
      exact hselect.bind fun _ => (Method.calls_lift _).bind fun _ => Method.calls_pure _
    · exact fun _ => hselect
  have hinstalled : Method.Calls NoRows (installedSchema supported : Py ℓ _) := by
    apply hselect.bind
    intro current
    cases current with
    | none => exact hcreate
    | some row => exact Method.calls_pure _
  have hupgrade : ∀ row, Method.Calls NoRows (upgradeSchema supported row : Py ℓ _) := by
    intro row
    apply (Method.calls_lift _).bind
    intro _
    split
    · exact (calls_query (by simp [NoRows])).bind fun _ => Method.calls_pure _
    · exact Method.calls_pure _
  apply (noRows_defineAll schemaStatements).bind
  intro _
  apply hinstalled.bind
  intro current
  cases current with
  | none => exact Method.calls_throw _
  | some row => exact hupgrade row

lemma noRows_ensureSchema {ℓ : Type} (supported : Int) :
    Method.Calls NoRows (ensureSchema supported false : Py ℓ Int) := by
  have hselect : Method.Calls NoRows (query .selectSchema : Py ℓ _) :=
    calls_query (by simp [NoRows])
  have hexisting : Method.Calls NoRows (selectExistingSchema : Py ℓ _) := by
    apply Method.Calls.tryCatch hselect
    intro e
    split
    · exact Method.calls_pure _
    · exact Method.calls_throw _
  change Method.Calls NoRows (installSchema supported : Py ℓ Int)
  apply hexisting.bind
  intro existing
  cases existing with
  | none => exact noRows_definitions supported
  | some row => exact (Method.calls_lift _).bind fun _ => noRows_definitions supported

lemma noRows_ensureRun (now : String) : Method.Calls NoRows (EventStore.ensureRun now) := by
  have hread : Method.Calls NoRows EventStore.readRunRow := by
    intro l
    refine ⟨by simp [NoRows], fun r => ?_⟩
    cases r with
    | error e => trivial
    | ok row =>
      cases row with
      | none => trivial
      | some row => exact ((Method.calls_lift _).bind fun _ => Method.calls_pure _) l
  intro l
  apply Method.Calls.bind hread _ l
  intro row
  cases row with
  | some row => exact Method.calls_pure _
  | none =>
    apply Method.Calls.tryCatch
    · exact calls_query (by simp [NoRows])
    · exact fun e => hread.bind fun _ => Method.calls_lift _

/-- How a constructor can end. -/
inductive Opening (env : Env F X) (S : Setting env) (g : String × String) (s : Database) :
    Hist → Except PyErr EventStore → Database → Prop
  | failed {h e s'} (he : e.cls ≠ .ledgerIntegrityError) (hread : ¬ Torn env g h) :
      Opening env S g s h (.error e) s'
  | torn {h e s' L₁ L₂} (hreads : Reads env g h L₁ L₂) (hne : L₁ ≠ L₂)
      (he : e.cls = .ledgerIntegrityError) : Opening env S g s h (.error e) s'
  | opened {h store s' L} (hreads : Reads env g h L L) (haddress : store.address = g)
      (hopen : store.closed = false) (hsees : store.Sees env L)
      (hpresent : (s'.tables.ledger env g).run ≠ none) (hkeeps : Keeps S s s')
      (hview : S.alone → s'.tables.events g = L) : Opening env S g s h (.ok store) s'

lemma ne_ledgerIntegrityError {e : PyErr} (he : e.cls.IsSdk) : e.cls ≠ .ledgerIntegrityError := by
  intro h
  rw [h] at he
  exact he

variable (store) in
/-- The part of the constructor behind the connection. -/
lemma wp_openRun (hsha : CollisionFree env) (henc : EncodesJson env) (hc : Consistent env s)
    (hopen : store.closed = false) (now : String) (hrows : ∀ rec ∈ h, NoRows rec.call)
    (hschema : ∀ st ws t, (∀ w ∈ ws, w.OfSchema) → S.allowed (.query st) ws t)
    (hcreates : ∀ st ws t, Good env t → Creates env sdk store.address ws t → S.allowed (.query st) ws t) :
    S.Wp sdk (fun h x s' => Consistent env s' ∧
      Opening env S store.address s h (x.1.map fun _ => x.2) s') h
      ((do
        let _ ← ensureSchema schemaVersion false
        let runRecord ← lift (recordId env.sha256 .agRun [store.scope, store.runId])
        modify fun self => { self with runRecord }
        EventStore.ensureRun now
        let report ← EventStore.verifyIntegrity env
        modify fun self => { self with
          expectedNextSeq := report.nextSeq
          expectedHeadHash := report.headHash } : Py EventStore Unit) store) s := by
  rw [wp_bind]
  apply wp_mono ((wp_ensureSchema hc hschema).calls (noRows_ensureSchema _ store) hrows)
  rintro h₁ ⟨r₁, store₁⟩ s₁ ⟨⟨hstore₁, hc₁, hk₁, hr₁⟩, hrows₁⟩
  obtain rfl : store₁ = store := hstore₁
  cases r₁ with
  | error e =>
    rw [wp_andThen_error]
    exact ⟨hc₁, .failed (ne_ledgerIntegrityError hr₁) (not_torn_of_calls hrows₁)⟩
  | ok v =>
    rw [wp_andThen_ok, wp_bind, wp_lift]
    cases hkey : recordId env.sha256 .agRun [store₁.scope, store₁.runId] with
    | error e =>
      rw [wp_andThen_error]
      refine ⟨hc₁, .failed ?_ (not_torn_of_calls hrows₁)⟩
      rw [recordId_error hkey]
      decide
    | ok runRecord =>
      rw [wp_andThen_ok, wp_bind, wp_modify, wp_andThen_ok, wp_bind]
      apply wp_mono ((wp_ensureRun { store₁ with runRecord } hsha hc₁ hkey now
        hcreates).calls (noRows_ensureRun now _) hrows₁)
      rintro h₂ ⟨r₂, store₂⟩ s₂ ⟨⟨⟨hstore₂, hc₂, hk₂, hr₂⟩, hpresent⟩, hrows₂⟩
      obtain rfl : store₂ = { store₁ with runRecord } := hstore₂
      cases r₂ with
      | error e =>
        rw [wp_andThen_error]
        exact ⟨hc₂, .failed (ne_ledgerIntegrityError hr₂) (not_torn_of_calls hrows₂)⟩
      | ok u =>
        have hpresent₂ : (s₂.tables.ledger env store₁.address).run ≠ none := hpresent u rfl
        have hstays : ∀ s', S.drift s₂ s' → (s'.tables.ledger env store₁.address).run ≠ none :=
          fun s' hd => present_of_past hpresent₂ (S.drift_past _ _ hd)
        rw [wp_andThen_ok, wp_bind]
        apply wp_mono (wp_verifyIntegrity { store₁ with runRecord } hsha henc hc₂ hkey
          hstays)
        rintro h₃ ⟨r₃, store₃⟩ s₃ ⟨hc₃, hd₃, hstore₃, v, hverdict, hr₃⟩
        obtain rfl : store₃ = { store₁ with runRecord } := hstore₃
        obtain rfl : r₃ = _ := hr₃
        cases hverdict with
        | closed hclosed he =>
          refine ⟨hc₃, .failed ?_ (not_torn_of_calls hrows₂)⟩
          rw [he]
          decide
        | lost hlost he => exact ⟨hc₃, .failed (ne_ledgerIntegrityError he) not_torn_of_error⟩
        | torn hreads hne _ he => exact ⟨hc₃, .torn hreads hne he⟩
        | @agreed h₃ row s' L hreads hd _ hgood hview hhead =>
          simp only [Except.map, wp_andThen_ok, wp_modify]
          refine ⟨hc₃, .opened hreads rfl hopen ?_ (hstays s₃ hd₃) ?_ ?_⟩
          · exact ⟨hkey, hhead.nextSeq, hhead.headHash⟩
          · exact (hk₁.trans hk₂).trans (keeps_of_drift hd₃)
          · intro halone
            rw [(S.drift_alone halone _ _ hd₃).tables, ← (S.drift_alone halone _ _ hd).tables]
            exact hview

theorem wp_new (hsha : CollisionFree env) (henc : EncodesJson env) (hc : Consistent env s)
    (runId scope now : String)
    (hschema : ∀ st ws t, (∀ w ∈ ws, w.OfSchema) → S.allowed (.query st) ws t)
    (hcreates : ∀ st ws t, Good env t → Creates env sdk (scope, runId) ws t → S.allowed (.query st) ws t)
    {ℓ : Type} (l : ℓ) :
    S.Wp sdk (fun h x s' => Consistent env s' ∧ x.2 = l ∧ Opening env S (scope, runId) s h x.1 s')
      [] (EventStore.new env runId scope now l) s := by
  have hbody : S.Wp sdk (fun h x s' => Consistent env s' ∧
      Opening env S (scope, runId) s h (x.1.map fun _ => x.2) s') []
      (EventStore.construct env runId scope now EventStore.blank) s := by
    unfold EventStore.construct
    apply wp_guard
    · intro _
      exact ⟨hc, .failed (by decide) (not_torn_of_calls (by simp))⟩
    · intro _
      apply wp_guard
      · intro _
        exact ⟨hc, .failed (by decide) (not_torn_of_calls (by simp))⟩
      · intro _
        rw [wp_bind, wp_modify, wp_andThen_ok, wp_bind]
        apply wp_ofSchema ofSchema_connect hc hschema
        intro s₀ r s₁ hk _ hc₁ herror _
        have hrows : ∀ rec ∈ [] ++ [⟨.query .connect, s₀, r, s₁⟩], NoRows (CallRec.call rec) := by
          intro rec hrec
          rw [List.nil_append, List.mem_singleton] at hrec
          rw [hrec]
          simp [NoRows]
        cases r with
        | error e =>
          rw [wp_done, wp_andThen_error]
          exact ⟨hc₁, .failed (ne_ledgerIntegrityError (herror e rfl)) (not_torn_of_calls hrows)⟩
        | ok u =>
          rw [wp_done, wp_andThen_ok, wp_tryCatch]
          apply wp_mono (wp_openRun { EventStore.blank with
            scope := scope, runId := runId, closed := false } hsha henc hc₁ rfl now hrows hschema hcreates)
          rintro h₂ ⟨r₂, store₂⟩ s₂ ⟨hc₂, hopening⟩
          cases r₂ with
          | error e =>
            rw [wp_orElse_error, wp_bind, wp_modify, wp_andThen_ok, wp_throw]
            refine ⟨hc₂, ?_⟩
            cases hopening with
            | failed he hread => exact .failed he hread
            | torn hreads hne he => exact .torn hreads hne he
          | ok u =>
            rw [wp_orElse_ok]
            refine ⟨hc₂, ?_⟩
            cases hopening with
            | opened hreads haddress hopen hsees hpresent hkeeps hview =>
              exact .opened hreads haddress hopen hsees hpresent (hk.trans hkeeps) hview
  unfold EventStore.new
  refine Prog.safe_bind_iff.mpr (wp_mono hbody ?_)
  rintro h ⟨r, store⟩ s' ⟨hc', hopening⟩
  cases r with
  | error e => exact ⟨hc', rfl, hopening⟩
  | ok u => exact ⟨hc', rfl, hopening⟩

end run

end ActiveGraphSurreal
