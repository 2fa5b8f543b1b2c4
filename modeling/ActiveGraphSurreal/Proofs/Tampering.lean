import ActiveGraphSurreal.Proofs.Chain
import ActiveGraphSurreal.Proofs.Reference
import ActiveGraphSurreal.Proofs.Running

/-!
# What an unchanged head rules out

Verification of arbitrary tables, by whoever they were written: two contents that are
accepted under one head hash decode to the same events.
-/

namespace ActiveGraphSurreal

open Library

set_option linter.unusedSectionVars false

variable {F X : Type} [Json.ScalarText F] {env : Env F X} {sdk : Sdk}

/-- Events with the same fields, the payloads compared as JSON values. -/
structure SameEvent (a b : Event F X) : Prop where
  id : a.id = b.id
  type : a.type = b.type
  payload : a.payload.canon = b.payload.canon
  actor : a.actor = b.actor
  frameId : a.frameId = b.frameId
  causedBy : a.causedBy = b.causedBy
  timestamp : a.timestamp = b.timestamp

variable (sdk) in
lemma alone_readRunRow (i : Nat) (self : EventStore) (db : Database) :
    ∃ result, alone sdk i EventStore.readRunRow self db = ((result, self), db) ∧
      ∀ run, result = .ok run → run = db.tables.run.lookup self.runRecord.key ∧
        ∀ row ∈ run, row.scope = self.scope ∧ row.runId = self.runId := by
  have hread : alone sdk i (query (.selectRun self.runRecord)) self db =
      ((.ok (db.tables.run.lookup self.runRecord.key), self), db) := alone_read sdk i self db rfl
  unfold EventStore.readRunRow
  simp only [alone_bind, alone_get, aloneThen_ok, hread]
  cases db.tables.run.lookup self.runRecord.key with
  | none =>
    refine ⟨_, rfl, fun run h => ?_⟩
    rw [← Except.ok.inj h]
    exact ⟨rfl, fun row hrow => absurd hrow (Option.not_mem_none row)⟩
  | some row =>
    simp only [alone_bind, alone_lift]
    by_cases hscope : row.scope ≠ self.scope ∨ row.runId ≠ self.runId
    · simp only [raiseIf, if_pos hscope, aloneThen_error]
      exact ⟨_, rfl, by simp⟩
    · simp only [raiseIf, if_neg hscope, aloneThen_ok, alone_pure]
      refine ⟨_, rfl, fun run h => ?_⟩
      rw [← Except.ok.inj h]
      refine ⟨rfl, fun row' hrow => ?_⟩
      rw [not_or, not_not, not_not] at hscope
      rw [← Option.mem_some_iff.mp hrow]
      exact hscope

/-- What a successful verification has checked. -/
lemma verifyIntegrity_ok {i : Nat} {self : EventStore} {db : Database} {report : IntegrityReport}
    (h : (alone sdk i (EventStore.verifyIntegrity env) self db).1.1 = .ok report) :
    EventStore.verifyRows env self.scope self.runId 0 none
      (db.tables.eventRows self.scope self.runId) = .ok report.headHash := by
  have hread : alone sdk i (query (.selectEvents self.scope self.runId)) self db =
      ((.ok (db.tables.eventRows self.scope self.runId), self), db) := alone_read sdk i self db rfl
  obtain ⟨result, hrun, hresult⟩ := alone_readRunRow sdk i self db
  unfold EventStore.verifyIntegrity EventStore.verifiedRowsAndRun EventStore.ensureOpen at h
  by_cases hclosed : self.closed = true
  · simp [raiseIf, hclosed] at h
  · cases result with
    | error e => simp [raiseIf, hclosed, hread, hrun] at h
    | ok run =>
      cases hv : EventStore.verify env self.scope self.runId
          (db.tables.eventRows self.scope self.runId) run with
      | error e => simp [raiseIf, hclosed, hread, hrun, hv] at h
      | ok p =>
        obtain ⟨rows, run'⟩ := p
        obtain ⟨-, rfl, -, hrows⟩ := verify_ok_iff.mp hv
        simp only [raiseIf, hclosed, alone_bind, alone_get, alone_lift, aloneThen_ok, hread, hrun,
          hv, alone_pure, Bool.false_eq_true, if_false, Except.ok.injEq] at h
        rw [hrows, ← h]

/-- Rows that decode to log events decode to events. -/
lemma mapM_of_decodes {rows : List EventRow} {es : List (LogEvent F)}
    (h : List.Forall₂ (Decodes env) rows es) :
    ∃ events : List (Event F X),
      rows.mapM (fun row => recordToEvent env row.toEventRecord) = .ok events ∧
      List.Forall₂ (fun event e => ∃ j hj, event.payload = plain j ∧ e = withPayload event j hj)
        events es := by
  induction h with
  | nil => exact ⟨[], rfl, .nil⟩
  | @cons row e rows es hrow _ ih =>
    obtain ⟨event, j, hj, hevent, hpayload, rfl⟩ := hrow
    obtain ⟨events, hmap, hall⟩ := ih
    refine ⟨event :: events, ?_, .cons ⟨j, hj, hpayload, rfl⟩ hall⟩
    rw [List.mapM_cons, hevent, hmap]
    rfl

lemma sameEvent_of_withPayload {a b : Event F X} {i j : Json F} {hi : i.Distinct}
    {hj : j.Distinct} (ha : a.payload = plain i) (hb : b.payload = plain j)
    (h : withPayload a i hi = withPayload b j hj) : SameEvent a b := by
  obtain ⟨hid, htype, hpayload, hactor, hframe, hcaused, htime⟩ := LogEvent.mk.inj h
  refine ⟨hid, htype, ?_, hactor, hframe, hcaused, htime⟩
  rw [ha, hb, plain, plain, Json.canon_map, Json.canon_map, hpayload]

variable (sdk) in
/-- The chain of a list under its head is accepted. -/
theorem verifyIntegrity_chainRows (henc : EncodesJson env) (i : Nat) {self : EventStore}
    {db : Database} {L : List (LogEvent F)} {row : RunRow} (hopen : self.closed = false)
    (hrows : db.tables.eventRows self.scope self.runId = chainRows env self.scope self.runId L)
    (hrow : db.tables.run.lookup self.runRecord.key = some row)
    (hscope : row.scope = self.scope ∧ row.runId = self.runId)
    (hnext : row.nextSeq = L.length) (hhead : row.headHash = headOf env self.scope self.runId L) :
    (alone sdk i (EventStore.verifyIntegrity env) self db).1.1 =
      .ok ⟨L.length, row.nextSeq, row.headHash⟩ := by
  have hread : alone sdk i (query (.selectEvents self.scope self.runId)) self db =
      ((.ok (db.tables.eventRows self.scope self.runId), self), db) := alone_read sdk i self db rfl
  have hrun : alone sdk i (query (.selectRun self.runRecord)) self db =
      ((.ok (some row), self), db) := by
    rw [← hrow]
    exact alone_read sdk i self db rfl
  have hverify : EventStore.verify env self.scope self.runId
      (chainRows env self.scope self.runId L) (some row) =
        .ok (chainRows env self.scope self.runId L, row) := by
    refine verify_ok_iff.mpr ⟨rfl, rfl, ?_, ?_⟩
    · rw [length_chainRows, hnext]
    · rw [hhead]
      exact verifyRows_chainRows henc L
  unfold EventStore.verifyIntegrity EventStore.verifiedRowsAndRun EventStore.ensureOpen
    EventStore.readRunRow
  simp [raiseIf, hopen, hread, hrun, hscope, hrows, hverify]

variable (sdk) in
/-- Two database contents that are accepted for a run and report one head hash decode to
the same list of events. -/
theorem same_head_same_events (hsha : CollisionFree env) (henc : EncodesJson env) (i : Nat)
    (self : EventStore) (db db' : Database) (report report' : IntegrityReport)
    (h : (alone sdk i (EventStore.verifyIntegrity env) self db).1.1 = .ok report)
    (h' : (alone sdk i (EventStore.verifyIntegrity env) self db').1.1 = .ok report')
    (hhead : report.headHash = report'.headHash) :
    ∃ events events' : List (Event F X),
      (db.tables.eventRows self.scope self.runId).mapM
        (fun row => recordToEvent env row.toEventRecord) = .ok events ∧
      (db'.tables.eventRows self.scope self.runId).mapM
        (fun row => recordToEvent env row.toEventRecord) = .ok events' ∧
      List.Forall₂ SameEvent events events' := by
  obtain ⟨es, hes, hhead₁⟩ := verifyRows_decodes henc (verifyIntegrity_ok h)
  obtain ⟨fs, hfs, hhead₂⟩ := verifyRows_decodes henc (verifyIntegrity_ok h')
  have heq : es = fs := by
    apply headOf_inj (s := self.scope) (r := self.runId) hsha
    unfold headOf chainHead
    rw [← hhead₁, ← hhead₂, hhead]
  subst heq
  obtain ⟨events, hmap, hall⟩ := mapM_of_decodes hes
  obtain ⟨events', hmap', hall'⟩ := mapM_of_decodes hfs
  refine ⟨events, events', hmap, hmap', ?_⟩
  clear hmap hmap' hes hfs hhead₁ hhead₂
  induction hall generalizing events' with
  | nil =>
    cases hall'
    exact .nil
  | cons hevent _ ih =>
    cases hall' with
    | cons hevent' hrest =>
      obtain ⟨j, hj, hpayload, rfl⟩ := hevent
      obtain ⟨j', hj', hpayload', heq⟩ := hevent'
      exact .cons (sameEvent_of_withPayload hpayload hpayload' heq) (ih _ hrest)

/-- A handle, and the tables of its run with one event at a key of choice. -/
def verifyingStore : EventStore := ⟨"s", "r", false, ⟨"run"⟩, 0, none⟩

def writtenEvent : LogEvent Unit :=
  ⟨"a", "note", .null, none, none, none, "now", rfl, trivial⟩

def writtenAt (key : String) : Database := { freshDatabase with
  tables := { Tables.empty with
    run := (∅ : Records RunRow).write "run" (some { EventStore.newRun "s" "r" "now" with
      nextSeq := 1
      headHash := headOf (reference Unit) "s" "r" [writtenEvent] })
    event := (chainRows (reference Unit) "s" "r" [writtenEvent]).foldl
      (fun t row => t.write key (some row)) ∅ } }

theorem same_head_same_events_written :
    ∃ events events' : List (Event Unit Empty),
      ((writtenAt "x").tables.eventRows "s" "r").mapM
        (fun row => recordToEvent (reference Unit) row.toEventRecord) = .ok events ∧
      ((writtenAt "y").tables.eventRows "s" "r").mapM
        (fun row => recordToEvent (reference Unit) row.toEventRecord) = .ok events' ∧
      List.Forall₂ SameEvent events events' :=
  same_head_same_events referenceSdk reference_collisionFree reference_encodesJson 0 verifyingStore
    (writtenAt "x") (writtenAt "y") _ _
    (verifyIntegrity_chainRows referenceSdk (L := [writtenEvent]) reference_encodesJson 0 rfl rfl
      rfl ⟨rfl, rfl⟩ rfl rfl)
    (verifyIntegrity_chainRows referenceSdk (L := [writtenEvent]) reference_encodesJson 0 rfl rfl
      rfl ⟨rfl, rfl⟩ rfl rfl) rfl

end ActiveGraphSurreal
