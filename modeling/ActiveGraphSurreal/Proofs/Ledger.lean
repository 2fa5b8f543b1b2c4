import ActiveGraphSurreal.Proofs.Chain

/-!
# The ledger of a run

The ledger of a scope and run is what the tables hold under its record keys: the run row and
the event rows by id. It `Holds` a list of log events when the rows are the chain of the
list and the head is its head. Tables that only the provider has written are `Good`: every
row sits under the key of its own fields, and every ledger is absent or holds a list.
-/

namespace ActiveGraphSurreal

open Library

set_option linter.unusedSectionVars false

variable {F X : Type} [Json.ScalarText F] (env : Env F X)

/-! ### Lookups under computed keys -/

def isRecord {table : Table} (record : Except PyErr (RecordId table)) (key : String) : Bool :=
  match record with
  | .ok record => record.key = key
  | .error _ => false

lemma isRecord_iff {table : Table} {record : Except PyErr (RecordId table)} {key : String} :
    isRecord record key ↔ record = .ok ⟨key⟩ := by
  cases record with
  | error e => simp [isRecord]
  | ok record =>
    obtain ⟨k⟩ := record
    simp [isRecord]

def recordAt {R : Type} {table : Table} (t : Records R)
    (record : Except PyErr (RecordId table)) : Option R :=
  match record with
  | .ok record => t.lookup record.key
  | .error _ => none

lemma recordAt_write {R : Type} {table : Table} (t : Records R) (key : String) (row : Option R)
    (record : Except PyErr (RecordId table)) :
    recordAt (t.write key row) record =
      if isRecord record key then row else recordAt t record := by
  cases record with
  | error e => rfl
  | ok record => simp [recordAt, isRecord, Records.lookup_write]

lemma recordAt_eq_some {R : Type} {table : Table} {t : Records R}
    {record : Except PyErr (RecordId table)} {row : R} (h : recordAt t record = some row) :
    ∃ key, record = .ok ⟨key⟩ ∧ t.lookup key = some row := by
  cases record with
  | error e => simp [recordAt] at h
  | ok record => exact ⟨record.key, rfl, h⟩

/-! ### Ledgers -/

def runKey (g : String × String) : Except PyErr (RecordId .agRun) :=
  recordId env.sha256 .agRun [g.1, g.2]

def eventKey (g : String × String) (id : String) : Except PyErr (RecordId .agEvent) :=
  recordId env.sha256 .agEvent [g.1, g.2, id]

@[ext]
structure Ledger where
  run : Option RunRow
  event : String → Option EventRow

def Tables.ledger (t : Tables) (g : String × String) : Ledger where
  run := recordAt t.run (runKey env g)
  event id := recordAt t.event (eventKey env g id)

namespace Ledger

/-- The head of a run row is the head of the list. -/
structure HeadOf (g : String × String) (L : List (LogEvent F)) (row : RunRow) : Prop where
  scope : row.scope = g.1
  runId : row.runId = g.2
  nextSeq : row.nextSeq = L.length
  headHash : row.headHash = headOf env g.1 g.2 L

structure Holds (p : Ledger) (g : String × String) (L : List (LogEvent F)) : Prop where
  run : ∃ row, p.run = some row ∧ HeadOf env g L row
  event : ∀ id row, p.event id = some row ↔ row ∈ chainRows env g.1 g.2 L ∧ row.eventId = id
  ids : (L.map (·.id)).Nodup

def Absent (p : Ledger) : Prop := p.run = none ∧ ∀ id, p.event id = none

/-- What a write does to a ledger. -/
def write (g : String × String) (p : Ledger) : Write → Ledger
  | .run key row => { p with run := if isRecord (runKey env g) key then row else p.run }
  | .event key row => { p with
      event := fun id => if isRecord (eventKey env g id) key then row else p.event id }
  | _ => p

end Ledger

variable {env}

lemma ledgerWrite_run (g : String × String) (p : Ledger) (key : String) (row : Option RunRow) :
    p.write env g (.run key row) =
      { p with run := if isRecord (runKey env g) key then row else p.run } := rfl

lemma ledgerWrite_event (g : String × String) (p : Ledger) (key : String)
    (row : Option EventRow) :
    p.write env g (.event key row) = { p with
      event := fun id => if isRecord (eventKey env g id) key then row else p.event id } := rfl

lemma ledger_apply (w : Write) (t : Tables) (g : String × String) :
    (w.apply t).ledger env g = (t.ledger env g).write env g w := by
  cases w with
  | run key row =>
    unfold Tables.ledger Ledger.write Write.apply
    simp only [recordAt_write]
  | event key row =>
    unfold Tables.ledger Ledger.write Write.apply
    simp only [recordAt_write]
  | _ => rfl

lemma ledger_applyAll (sdk : Sdk) (ws : List Write) (t : Tables) (g : String × String) :
    ((engine sdk).applyAll ws t).ledger env g = ws.foldl (Ledger.write env g) (t.ledger env g) := by
  induction ws generalizing t with
  | nil => rfl
  | cons w ws ih =>
    rw [Engine.applyAll, List.foldl_cons, List.foldl_cons, ← ledger_apply]
    exact ih (w.apply t)

/-! ### Good tables -/

/-- A write under the key of its own fields. -/
def Write.Proper (env : Env F X) : Write → Prop
  | .run key row => ∃ r, row = some r ∧ runKey env (r.scope, r.runId) = .ok ⟨key⟩
  | .event key row => ∀ r, row = some r → eventKey env (r.scope, r.runId) r.eventId = .ok ⟨key⟩
  | .schema row => row.version = schemaVersion
  | _ => True

structure Keyed (env : Env F X) (t : Tables) : Prop where
  run : ∀ key row, t.run.lookup key = some row →
    runKey env (row.scope, row.runId) = .ok ⟨key⟩
  event : ∀ key row, t.event.lookup key = some row →
    eventKey env (row.scope, row.runId) row.eventId = .ok ⟨key⟩
  schema : ∀ row, t.schema = some row → row.version = schemaVersion

structure Good (env : Env F X) (t : Tables) : Prop where
  keyed : Keyed env t
  ledger : ∀ g, (t.ledger env g).Absent ∨ ∃ L, (t.ledger env g).Holds env g L

/-- Run records and the schema record stay. -/
structure Past (t t' : Tables) : Prop where
  run : ∀ key, (t.run.lookup key).isSome → (t'.run.lookup key).isSome
  schema : t.schema.isSome → t'.schema.isSome

lemma past_refl (t : Tables) : Past t t := ⟨fun _ => id, id⟩

lemma past_trans (a b c : Tables) (h : Past a b) (h' : Past b c) : Past a c :=
  ⟨fun key hk => h'.run key (h.run key hk), fun hs => h'.schema (h.schema hs)⟩

lemma keyed_apply {t : Tables} (h : Keyed env t) {w : Write} (hw : w.Proper env) :
    Keyed env (w.apply t) := by
  cases w with
  | run key row =>
    refine ⟨fun k r hk => ?_, h.event, h.schema⟩
    change (t.run.write key row).lookup k = some r at hk
    rw [Records.lookup_write] at hk
    by_cases hkey : k = key
    · obtain ⟨r', rfl, hproper⟩ := hw
      rw [if_pos hkey] at hk
      obtain rfl := Option.some.inj hk
      rw [hkey]
      exact hproper
    · rw [if_neg hkey] at hk
      exact h.run k r hk
  | event key row =>
    refine ⟨h.run, fun k r hk => ?_, h.schema⟩
    change (t.event.write key row).lookup k = some r at hk
    rw [Records.lookup_write] at hk
    by_cases hkey : k = key
    · rw [if_pos hkey] at hk
      rw [hkey]
      exact hw r hk
    · rw [if_neg hkey] at hk
      exact h.event k r hk
  | schema row =>
    refine ⟨h.run, h.event, fun r hr => ?_⟩
    obtain rfl : row = r := Option.some.inj hr
    exact hw
  | _ => exact ⟨h.run, h.event, h.schema⟩

lemma past_apply {t : Tables} {w : Write} (hw : w.Proper env) : Past t (w.apply t) := by
  cases w with
  | run key row =>
    obtain ⟨r, rfl, -⟩ := hw
    refine ⟨fun k hk => ?_, id⟩
    change ((t.run.write key (some r)).lookup k).isSome
    rw [Records.lookup_write]
    split
    · rfl
    · exact hk
  | schema row => exact ⟨fun _ => id, fun _ => rfl⟩
  | _ => exact ⟨fun _ => id, id⟩

lemma proper_applyAll (sdk : Sdk) {ws : List Write} (hws : ∀ w ∈ ws, w.Proper env) {t : Tables}
    (h : Keyed env t) :
    Keyed env ((engine sdk).applyAll ws t) ∧ Past t ((engine sdk).applyAll ws t) := by
  induction ws generalizing t with
  | nil => exact ⟨h, past_refl t⟩
  | cons w ws ih =>
    have hw := hws w (by simp)
    obtain ⟨hkeyed, hpast⟩ := ih (fun w' h' => hws w' (by simp [h'])) (keyed_apply h hw)
    exact ⟨hkeyed, past_trans _ _ _ (past_apply hw) hpast⟩

/-! ### The rows that the queries return -/

lemma eventRows_perm {t : Tables} (hkeyed : Keyed env t) {g : String × String}
    {rows : List EventRow} (hrows : rows.Pairwise fun a b => a.seq < b.seq)
    (hmem : ∀ row, row ∈ rows ↔ ((t.ledger env g).event row.eventId = some row ∧
      row.scope = g.1 ∧ row.runId = g.2)) :
    t.eventRows g.1 g.2 = rows := by
  have hnodup : t.event.rows.Nodup := by
    refine Records.nodup_rows (p := fun r k => eventKey env (r.scope, r.runId) r.eventId =
      .ok ⟨k⟩) ?_ hkeyed.event
    intro r k k' hk hk'
    exact congrArg RecordId.key (Except.ok.inj (hk.symm.trans hk'))
  have hnodup' : rows.Nodup := hrows.imp fun h heq => by
    rw [heq] at h
    omega
  have hperm : (t.event.rows.filter fun row => row.scope = g.1 && row.runId = g.2).Perm rows := by
    rw [List.perm_ext_iff_of_nodup (hnodup.filter _) hnodup']
    intro row
    rw [hmem, List.mem_filter, Records.mem_rows]
    simp only [Bool.and_eq_true, decide_eq_true_eq]
    constructor
    · rintro ⟨⟨key, hkey⟩, hs, hr⟩
      refine ⟨?_, hs, hr⟩
      have hk := hkeyed.event key row hkey
      rw [hs, hr] at hk
      change recordAt t.event (eventKey env g row.eventId) = some row
      rw [hk]
      exact hkey
    · rintro ⟨hevent, hs, hr⟩
      obtain ⟨key, -, hkey⟩ := recordAt_eq_some hevent
      exact ⟨⟨key, hkey⟩, hs, hr⟩
  exact Records.insertionSort_eq hrows hperm

lemma mem_chainRows_scope {g : String × String} {L : List (LogEvent F)} {row : EventRow}
    (h : row ∈ chainRows env g.1 g.2 L) : row.scope = g.1 ∧ row.runId = g.2 := by
  obtain ⟨hs, hr, -⟩ := mem_rowsFrom h
  exact ⟨hs, hr⟩

theorem eventRows_of_holds {t : Tables} (hkeyed : Keyed env t) {g : String × String}
    {L : List (LogEvent F)} (h : (t.ledger env g).Holds env g L) :
    t.eventRows g.1 g.2 = chainRows env g.1 g.2 L := by
  refine eventRows_perm hkeyed (pairwise_chainRows L) fun row => ?_
  constructor
  · intro hrow
    exact ⟨(h.event _ _).mpr ⟨hrow, rfl⟩, mem_chainRows_scope hrow⟩
  · rintro ⟨hevent, -⟩
    exact ((h.event _ _).mp hevent).1

theorem eventRows_of_absent {t : Tables} (hkeyed : Keyed env t) {g : String × String}
    (h : (t.ledger env g).Absent) : t.eventRows g.1 g.2 = [] := by
  refine eventRows_perm hkeyed List.Pairwise.nil fun row => ?_
  simp [h.2]

/-! ### The events of a run -/

/-- The log event that a record decodes to. -/
def decodeRow (record : EventRecord) : Option (LogEvent F) :=
  match h : Json.parse record.payloadJson.toList with
  | none => none
  | some (j : Json F) => some {
      id := record.eventId
      type := record.eventType
      payload := j.canon
      actor := record.actor
      frameId := record.frameId
      causedBy := record.causedBy
      timestamp := record.timestamp
      canonical := Json.canon_canon j
      distinct := (Json.distinct_canon j).mpr (Json.distinct_parse h) }

lemma decodeRow_record (e : LogEvent F) : decodeRow e.record = some e := by
  have hparse : Json.parse e.record.payloadJson.toList = some e.payload := by
    unfold LogEvent.record dumps
    rw [String.toList_ofList, Json.parse_render ((Json.distinct_canon _).mpr e.distinct),
      e.canonical]
  unfold decodeRow
  split
  · next h => simp [hparse] at h
  · next j h =>
    obtain rfl : e.payload = j := by simpa [hparse] using h
    rw [Option.some.injEq]
    exact LogEvent.ext rfl rfl e.canonical rfl rfl rfl rfl

/-- The events that the rows of a query decode to. -/
def decodeRows (rows : List EventRow) : List (LogEvent F) :=
  rows.filterMap fun row => decodeRow row.toEventRecord

lemma decodeRows_rowsFrom (s r : String) (n : Nat) (prev : Option String)
    (es : List (LogEvent F)) : decodeRows (rowsFrom env s r n prev es) = es := by
  induction es generalizing n prev with
  | nil => rfl
  | cons e es ih =>
    unfold decodeRows at ih ⊢
    rw [rowsFrom, List.filterMap_cons]
    simp only [EventStore.eventRow, decodeRow_record, ih]

variable (env) in
@[simp] lemma decodeRows_chainRows (s r : String) (es : List (LogEvent F)) :
    decodeRows (chainRows env s r es) = es := decodeRows_rowsFrom s r 0 none es

lemma chainRows_inj {s r : String} {es fs : List (LogEvent F)}
    (h : chainRows env s r es = chainRows env s r fs) : es = fs := by
  rw [← decodeRows_chainRows env s r es, h, decodeRows_chainRows]

/-- The events in the log of a run. -/
def Tables.events (t : Tables) (g : String × String) : List (LogEvent F) :=
  decodeRows (t.eventRows g.1 g.2)

lemma events_of_holds {t : Tables} (hkeyed : Keyed env t) {g : String × String}
    {L : List (LogEvent F)} (h : (t.ledger env g).Holds env g L) : t.events g = L := by
  unfold Tables.events
  rw [eventRows_of_holds hkeyed h, decodeRows_chainRows]

lemma events_of_absent {t : Tables} (hkeyed : Keyed env t) {g : String × String}
    (h : (t.ledger env g).Absent) : (t.events g : List (LogEvent F)) = [] := by
  unfold Tables.events
  rw [eventRows_of_absent hkeyed h]
  rfl

/-- In good tables, a run with a run row holds its events. -/
lemma Good.holds {t : Tables} (h : Good env t) {g : String × String} {row : RunRow}
    (hrow : (t.ledger env g).run = some row) :
    (t.ledger env g).Holds env g (t.events g) ∧ Ledger.HeadOf env g (t.events g) row := by
  rcases h.ledger g with habs | ⟨L, hL⟩
  · rw [habs.1] at hrow
    cases hrow
  · rw [events_of_holds h.keyed hL]
    obtain ⟨row', hrow', hhead⟩ := hL.run
    obtain rfl : row' = row := Option.some.inj (hrow'.symm.trans hrow)
    exact ⟨hL, hhead⟩

lemma Good.absent {t : Tables} (h : Good env t) {g : String × String}
    (hrow : (t.ledger env g).run = none) : (t.ledger env g).Absent := by
  rcases h.ledger g with habs | ⟨L, hL⟩
  · exact habs
  · obtain ⟨row, hrow', -⟩ := hL.run
    rw [hrow] at hrow'
    cases hrow'

/-- The events of good tables are a function of the ledger. -/
lemma events_congr {t t' : Tables} (h : Good env t) (h' : Good env t') {g : String × String}
    (heq : t.ledger env g = t'.ledger env g) : (t.events g : List (LogEvent F)) = t'.events g := by
  rcases h.ledger g with habs | ⟨L, hL⟩
  · rw [events_of_absent h.keyed habs, events_of_absent h'.keyed (heq ▸ habs)]
  · rw [events_of_holds h.keyed hL, events_of_holds h'.keyed (heq ▸ hL)]

end ActiveGraphSurreal
