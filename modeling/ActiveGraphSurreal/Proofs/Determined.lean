import ActiveGraphSurreal.Library.Traces
import ActiveGraphSurreal.Proofs.Histories

/-!
# A ledger and its list

The list of events that a history leaves decides every stored row of the run and its head,
whichever way the run came to hold it.
-/

namespace ActiveGraphSurreal

open Library Setting

set_option linter.unusedSectionVars false

variable {F X : Type} [Json.ScalarText F] {env : Env F X} {sdk : Sdk}
  {lostCall lostAnswer : Prop} {g : String × String}

/-! ### The list of a history -/

/-- A list is split at an id in one way. -/
lemma split_unique {pre pre' post post' : List (LogEvent F)} {e e' : LogEvent F}
    (hids : ((pre ++ e :: post).map (·.id)).Nodup) (hid : e.id = e'.id)
    (h : pre ++ e :: post = pre' ++ e' :: post') : pre ++ [e] = pre' ++ [e'] := by
  have hlength : ∀ {pre post : List (LogEvent F)} {e : LogEvent F},
      ((pre ++ e :: post).map (·.id)).Nodup →
      ((pre ++ e :: post).map (·.id)).idxOf e.id = pre.length := by
    intro pre post e hnodup
    rw [List.map_append, List.map_cons] at hnodup ⊢
    have hnot : e.id ∉ pre.map (·.id) := by
      intro hmem
      exact (List.nodup_append.mp hnodup).2.2 _ hmem _ (List.mem_cons_self ..) rfl
    rw [List.idxOf_append_of_notMem hnot, List.idxOf_cons_self, List.length_map, Nat.add_zero]
  have hlen : pre.length = pre'.length := by
    rw [← hlength hids, hid, h]
    rw [h] at hids
    exact hlength hids
  obtain ⟨hpre, hpost⟩ := List.append_inj h hlen
  rw [hpre, (List.cons.inj hpost).1]

lemma events_append {t t' : Tables} {L : List (LogEvent F)} {e : LogEvent F}
    (h : t'.eventRows g.1 g.2 = t.eventRows g.1 g.2 ++ [appendedRow env g L e]) :
    (t'.events g : List (LogEvent F)) = t.events g ++ [e] := by
  have hdecode : decodeRow (appendedRow env g L e).toEventRecord = some e := decodeRow_record e
  unfold Tables.events decodeRows
  rw [h, List.filterMap_append]
  congr 1
  simp only [List.filterMap_cons, hdecode, List.filterMap_nil]

/-- The list that a history leaves is the list of the run. -/
theorem events_of_history (hsha : CollisionFree env) (henc : EncodesJson env)
    (hdict : EncodesDict env) {tr : List (EventLabel F X)} {c : EventConfig F X}
    (hr : Reaches env sdk lostCall lostAnswer tr c) {L : List (LogEvent F)}
    (h : History env g tr L) : c.shared.tables.events g = L := by
  induction hr generalizing L with
  | nil =>
    generalize htr : ([] : List (EventLabel F X)) = tr at h
    have habsent : (Tables.empty.ledger env g).Absent := ledger_empty g
    have hempty : (Tables.empty.events g : List (LogEvent F)) = [] :=
      events_of_absent good_empty.keyed habsent
    cases h with
    | nil => exact hempty
    | _ => simp at htr
  | @snoc tr c e c' hr hs ih =>
    have hf := stepFacts hsha henc hdict hr hs
    have hbefore : ∀ {i l op rec}, e = .call i l op rec →
        rec.before = c.shared ∧ rec.after = c'.shared := by
      intro i l op rec he
      obtain ⟨hb, ha, -⟩ := hf.call i l op rec he
      exact ⟨hb, ha⟩
    generalize htr : tr ++ [e] = tr' at h
    cases h with
    | nil => simp at htr
    | other h he =>
      obtain ⟨rfl, hlast⟩ := List.append_inj' htr rfl
      obtain rfl := List.singleton_inj.mp hlast
      have hstep := history_step hf (history_run hsha henc hdict g hr)
      rw [← ih h]
      generalize htr' : tr ++ [e] = tr', hM : (c'.shared.tables.events g : List (LogEvent F)) = M at hstep ⊢
      cases hstep with
      | nil => simp at htr'
      | other h' =>
        obtain ⟨rfl, -⟩ := List.append_inj' htr' rfl
        exact (ih h').symm
      | _ =>
        obtain ⟨-, hlast⟩ := List.append_inj' htr' rfl
        obtain rfl := List.singleton_inj.mp hlast
        contradiction
    | @append tr₀ L₀ i handle event rec d h he hview hexpected hnormal hnew hrows =>
      obtain ⟨rfl, hlast⟩ := List.append_inj' htr rfl
      obtain ⟨hb, ha⟩ := hbefore (List.singleton_inj.mp hlast)
      rw [hb, ha] at hrows
      rw [events_append hrows, ih h]
    | @truncate tr₀ pre d post i handle id rec h he hview hid hrows =>
      obtain ⟨rfl, hlast⟩ := List.append_inj' htr rfl
      obtain ⟨hb, ha⟩ := hbefore (List.singleton_inj.mp hlast)
      have hevents := ih h
      rw [hb, ha, eventRows_eq hf.good, eventRows_eq hf.good', hevents, chainRows_take] at hrows
      rw [chainRows_inj hrows]
      simp [List.take_append]
    | @fork tr₀ pre d post i handle id label now now' newRunId rec h he hparent hid =>
      obtain ⟨rfl, hlast⟩ := List.append_inj' htr rfl
      obtain ⟨hb, ha, hcommit⟩ := hf.call _ _ _ _ (List.singleton_inj.mp hlast)
      obtain ⟨rfl, hcall, hlog⟩ := he
      cases hcommit with
      | none hsame => exact absurd hsame.log hlog
      | @some ws hcommits hallows =>
        rcases hallows with ⟨-, hforks⟩ | ⟨hne, -⟩
        · obtain ⟨pre', d', post', hparent', hid', hmove⟩ := hforks.split
          have hgood' := hf.good'
          rw [← ha, hcommits.1] at hgood' ⊢
          rw [events_of_move hgood' hmove]
          have hids := nodup_events hf.good handle.store.address
          rw [← hb, hparent'] at hids
          exact split_unique hids (hid'.trans hid.symm) (hparent'.symm.trans hparent)
        · exact absurd hcall hne

/-! ### Exports -/

/-- The events that the records of an exported list decode to. -/
def Exported (env : Env F X) (L : List (LogEvent F)) (events : List (Event F X)) : Prop :=
  ∃ records, (L.map LogEvent.toEvent).mapM (eventToRecord env) = .ok records ∧
    records.mapM (recordToEvent env) = .ok events

/-- The commits of a trace to a run append the events of the list, one after the other. -/
inductive Restores (g : String × String) : List (EventLabel F X) → List (Event F X) → Prop
  | nil : Restores g [] []
  | other {tr events e} (h : Restores g tr events) (he : ¬ CommitsTo g e) :
      Restores g (tr ++ [e]) events
  | append {tr events i handle event rec} (h : Restores g tr events)
      (he : CommitsTo g (.call i (some handle) (.append event) rec)) :
      Restores g (tr ++ [.call i (some handle) (.append event) rec]) (events ++ [event])

lemma exported_toEvent (henc : EncodesJson env) {L : List (LogEvent F)} {events : List (Event F X)}
    (h : Exported env L events) : events = L.map LogEvent.toEvent := by
  obtain ⟨records, hrecords, hevents⟩ := h
  have hencode : ∀ L : List (LogEvent F),
      (L.map LogEvent.toEvent).mapM (eventToRecord env) = .ok (L.map LogEvent.record) := by
    intro L
    induction L with
    | nil => rfl
    | cons e L ih =>
      have he : eventToRecord env e.toEvent = .ok e.record :=
        eventToRecord_ok_iff.mpr ⟨e, normal_toEvent henc e, rfl⟩
      rw [List.map_cons, List.mapM_cons, he, ih]
      rfl
  have hdecode : ∀ L : List (LogEvent F), (L.map LogEvent.record).mapM (recordToEvent env) =
      .ok (L.map (LogEvent.toEvent (X := X))) := by
    intro L
    induction L with
    | nil => rfl
    | cons e L ih =>
      rw [List.map_cons, List.mapM_cons, recordToEvent_record, ih]
      rfl
  obtain rfl := Except.ok.inj (hrecords.symm.trans (hencode L))
  exact Except.ok.inj (hevents.symm.trans (hdecode L))

/-- A run into which events are restored holds what they are stored as. -/
lemma normal_of_restores (hsha : CollisionFree env) (henc : EncodesJson env)
    (hdict : EncodesDict env) {tr : List (EventLabel F X)} {c : EventConfig F X}
    (hr : Reaches env sdk lostCall lostAnswer tr c) {events : List (Event F X)}
    (h : Restores g tr events) :
    ∃ L, History env g tr L ∧ List.Forall₂ (Normal env) events L := by
  induction hr generalizing events with
  | nil =>
    generalize htr : ([] : List (EventLabel F X)) = tr at h
    cases h with
    | nil => exact ⟨[], .nil, .nil⟩
    | _ => simp at htr
  | @snoc tr c e c' hr hs ih =>
    have hstep := history_step (stepFacts hsha henc hdict hr hs) (history_run hsha henc hdict g hr)
    generalize htr : tr ++ [e] = tr' at h
    cases h with
    | nil => simp at htr
    | other h he =>
      obtain ⟨rfl, hlast⟩ := List.append_inj' htr rfl
      obtain rfl := List.singleton_inj.mp hlast
      obtain ⟨L, hhistory, hnormal⟩ := ih h
      exact ⟨L, .other hhistory he, hnormal⟩
    | @append tr₀ events i handle event rec h he =>
      obtain ⟨rfl, hlast⟩ := List.append_inj' htr rfl
      obtain rfl := List.singleton_inj.mp hlast
      obtain ⟨L, hhistory, hnormal⟩ := ih h
      generalize htr' : tr ++ [_] = tr',
        hM : (c'.shared.tables.events g : List (LogEvent F)) = M at hstep
      cases hstep with
      | nil => simp at htr'
      | other h' hother =>
        obtain ⟨-, hlast'⟩ := List.append_inj' htr' rfl
        obtain rfl := List.singleton_inj.mp hlast'
        exact absurd he hother
      | @append tr₁ L₁ i handle event rec d h' he' hview hexpected hd hnew hrows =>
        obtain ⟨rfl, hlast'⟩ := List.append_inj' htr' rfl
        cases List.singleton_inj.mp hlast'
        obtain rfl : L₁ = L := (events_of_history hsha henc hdict hr h').symm.trans
          (events_of_history hsha henc hdict hr hhistory)
        exact ⟨_, .append h' he' hview hexpected hd hnew hrows,
          List.rel_append hnormal (.cons hd .nil)⟩
      | _ =>
        obtain ⟨-, hlast'⟩ := List.append_inj' htr' rfl
        cases List.singleton_inj.mp hlast'

/-- Commits that only append restore the events they append. -/
lemma restores_of_appends {tr : List (EventLabel F X)} {p : Event F X → Prop}
    (h : ∀ e ∈ tr, CommitsTo g e →
      ∃ i handle event rec, e = .call i (some handle) (.append event) rec ∧ p event) :
    ∃ events, Restores g tr events ∧ ∀ event ∈ events, p event := by
  induction tr using List.reverseRecOn with
  | nil => exact ⟨[], .nil, List.forall_mem_nil p⟩
  | append_singleton tr e ih =>
    obtain ⟨events, hrestores, hall⟩ := ih fun e' he' => h e' (List.mem_append_left _ he')
    by_cases he : CommitsTo g e
    · obtain ⟨i, handle, event, rec, rfl, hevent⟩ :=
        h e (List.mem_append_right _ (List.mem_singleton_self e)) he
      refine ⟨events ++ [event], .append hrestores he, ?_⟩
      intro event' hmem
      rcases List.mem_append.mp hmem with hmem | hmem
      · exact hall event' hmem
      · rw [List.mem_singleton.mp hmem]
        exact hevent
    · exact ⟨events, .other hrestores he, hall⟩

/-- How a run comes to hold a list: by appends, truncations and a fork, or by restoring the
list that was exported from some run. -/
inductive Leaves (env : Env F X) (g : String × String) (tr : List (EventLabel F X))
    (L : List (LogEvent F)) : Prop
  | history (h : History env g tr L)
  | restored {events : List (Event F X)} (hexported : Exported env L events)
      (h : Restores g tr events)

lemma events_of_leaves (hsha : CollisionFree env) (henc : EncodesJson env)
    (hdict : EncodesDict env) {tr : List (EventLabel F X)} {c : EventConfig F X}
    (hr : Reaches env sdk lostCall lostAnswer tr c) {L : List (LogEvent F)}
    (h : Leaves env g tr L) : c.shared.tables.events g = L := by
  cases h with
  | history h => exact events_of_history hsha henc hdict hr h
  | restored hexported h =>
    obtain ⟨M, hhistory, hnormal⟩ := normal_of_restores hsha henc hdict hr h
    obtain rfl := exported_toEvent henc hexported
    rw [events_of_history hsha henc hdict hr hhistory]
    rw [List.forall₂_map_left_iff] at hnormal
    have heq : List.Forall₂ (· = ·) L M :=
      hnormal.imp fun e d hd => (normal_toEvent henc e).unique hd
    exact (List.forall₂_eq_eq_eq ▸ heq : L = M).symm

/-- Two runs of one scope and name that hold one list have the same rows and the same head,
on whatever servers and in whatever ways they came to hold it. -/
theorem ledger_determined (hsha : CollisionFree env) (henc : EncodesJson env)
    (hdict : EncodesDict env) (g : String × String) {L : List (LogEvent F)} {sdk sdk' : Sdk}
    {lostCall lostAnswer lostCall' lostAnswer' : Prop} {tr tr' : List (EventLabel F X)}
    {c c' : EventConfig F X} (hr : Reaches env sdk lostCall lostAnswer tr c)
    (hr' : Reaches env sdk' lostCall' lostAnswer' tr' c') (h : Leaves env g tr L)
    (h' : Leaves env g tr' L) :
    c.shared.tables.eventRows g.1 g.2 = c'.shared.tables.eventRows g.1 g.2 ∧
    ∀ row row', (c.shared.tables.ledger env g).run = some row →
      (c'.shared.tables.ledger env g).run = some row' →
      row.nextSeq = row'.nextSeq ∧ row.headHash = row'.headHash := by
  have hgood := good_of_reaches hsha henc hdict hr
  have hgood' := good_of_reaches hsha henc hdict hr'
  have hevents := events_of_leaves hsha henc hdict hr h
  have hevents' := events_of_leaves hsha henc hdict hr' h'
  constructor
  · rw [eventRows_eq hgood, eventRows_eq hgood', hevents, hevents']
  · intro row row' hrow hrow'
    have hhead := (hgood.holds hrow).2
    have hhead' := (hgood'.holds hrow').2
    rw [hevents] at hhead
    rw [hevents'] at hhead'
    exact ⟨hhead.nextSeq.trans hhead'.nextSeq.symm, hhead.headHash.trans hhead'.headHash.symm⟩

/-! ### One list, three ways -/

lemma record_injective : Function.Injective (LogEvent.record (F := F)) := by
  intro e e' h
  have hdecode := congrArg (decodeRow (F := F)) h
  rw [decodeRow_record, decodeRow_record] at hdecode
  exact Option.some.inj hdecode

/-- The run `"child"` is forked from a run with one event. -/
def forkedChild : EventOrders :=
  [.start 0 (.open_ "r" "s" "now"), .finish 0, .start 0 (.append (referenceEvent "a")), .finish 0,
    .start 0 (.forkPrefix "child" "a" none "now" "now"), .finish 0]

/-- The run `"child"` is opened twice, and the second handle appends the event. -/
def appendedChild : EventOrders :=
  [.start 0 (.open_ "child" "s" "now"), .finish 0, .start 1 (.open_ "child" "s" "later"),
    .finish 1, .start 1 (.append (referenceEvent "a")), .finish 1]

/-- The run `"child"` gets the event that another one has exported. -/
def restoredChild : EventOrders :=
  [.start 0 (.open_ "child" "s" "now"), .finish 0, .start 0 (.append (referenceEvent "a")),
    .finish 0]

/-- The records of the run `"child"` at the end of a schedule. -/
def childRecords (orders : EventOrders) : List EventRecord :=
  ((scheduled orders).2.shared.tables.events ("s", "child") : List (LogEvent Unit)).map
    LogEvent.record

lemma childRecords_forkedChild : childRecords forkedChild = [(referenceLogged "a").record] := by
  decide +kernel

lemma childRecords_appendedChild : childRecords appendedChild = [(referenceLogged "a").record] := by
  decide +kernel

lemma childRecords_restoredChild : childRecords restoredChild = [(referenceLogged "a").record] := by
  decide +kernel

lemma events_of_childRecords {orders : EventOrders}
    (h : childRecords orders = [(referenceLogged "a").record]) :
    ((scheduled orders).2.shared.tables.events ("s", "child") : List (LogEvent Unit)) =
      [referenceLogged "a"] :=
  List.map_injective_iff.mpr record_injective h

lemma leaves_history {orders : EventOrders}
    (h : childRecords orders = [(referenceLogged "a").record]) :
    Leaves (reference Unit) ("s", "child") (scheduled orders).1 [referenceLogged "a"] := by
  have hhistory := history_run reference_collisionFree reference_encodesJson
    reference_encodesDict ("s", "child") (reaches_scheduled orders)
  rw [events_of_childRecords h] at hhistory
  exact .history hhistory

/-- The operation writes nothing to a log but the first event. -/
def appendsFirst : EventOp Unit Empty → Bool
  | .append ⟨"a", "note", .obj [("text", .str "a")], none, none, none,
      "2026-01-01T00:00:00Z"⟩ => true
  | .append _ | .truncateAfter _ | .forkPrefix .. => false
  | _ => true

lemma eq_of_appendsFirst {event : Event Unit Empty} (h : appendsFirst (.append event) = true) :
    event = referenceEvent "a" := by
  unfold appendsFirst at h
  split at h
  · next heq => exact EventOp.append.inj heq
  · cases h
  · cases h
  · cases h
  · next hother _ _ => exact absurd rfl (hother event)

lemma append_of_appendsFirst {e : EventLabel Unit Empty} (hfirst : appendsFirst e.op = true)
    (he : CommitsTo g e) : ∃ i handle event rec,
      e = .call i (some handle) (.append event) rec ∧ event = referenceEvent "a" := by
  cases e with
  | start | finish => exact he.elim
  | call i l op rec =>
    cases l with
    | none => exact he.elim
    | some handle =>
      cases op with
      | append event => exact ⟨i, handle, event, rec, rfl, eq_of_appendsFirst hfirst⟩
      | truncateAfter | forkPrefix => cases hfirst
      | _ => exact he.elim

lemma leaves_restored :
    Leaves (reference Unit) ("s", "child") (scheduled restoredChild).1 [referenceLogged "a"] := by
  have hall : (scheduled restoredChild).1.all (fun e => appendsFirst e.op) = true := by
    decide +kernel
  obtain ⟨events, hrestores, hevents⟩ := restores_of_appends (g := ("s", "child"))
    fun e he hcommits => append_of_appendsFirst (List.all_eq_true.mp hall e he) hcommits
  obtain ⟨L, hhistory, hnormal⟩ := normal_of_restores reference_collisionFree
    reference_encodesJson reference_encodesDict (reaches_scheduled restoredChild) hrestores
  have hlist := events_of_history reference_collisionFree reference_encodesJson
    reference_encodesDict (reaches_scheduled restoredChild) hhistory
  rw [events_of_childRecords childRecords_restoredChild] at hlist
  subst hlist
  obtain ⟨event, rest, -, hrest, rfl⟩ := List.forall₂_cons_right_iff.mp hnormal
  obtain rfl := List.forall₂_nil_right_iff.mp hrest
  obtain rfl := hevents event (List.mem_singleton_self event)
  refine .restored ⟨[(referenceLogged "a").record], ?_, ?_⟩ hrestores
  · change [referenceEvent "a"].mapM (eventToRecord (reference Unit)) = _
    rw [List.mapM_cons, eventToRecord_ok_iff.mpr ⟨_, normal_referenceEvent "a", rfl⟩]
    rfl
  · rw [List.mapM_cons, recordToEvent_record]
    rfl

theorem ledger_determined_forkedChild :
    ((scheduled forkedChild).2.shared.tables.eventRows "s" "child" =
        (scheduled appendedChild).2.shared.tables.eventRows "s" "child" ∧
      ∀ row row',
        ((scheduled forkedChild).2.shared.tables.ledger (reference Unit) ("s", "child")).run =
          some row →
        ((scheduled appendedChild).2.shared.tables.ledger (reference Unit) ("s", "child")).run =
          some row' →
        row.nextSeq = row'.nextSeq ∧ row.headHash = row'.headHash) ∧
    (scheduled forkedChild).2.shared.tables.eventRows "s" "child" =
        (scheduled restoredChild).2.shared.tables.eventRows "s" "child" ∧
      ∀ row row',
        ((scheduled forkedChild).2.shared.tables.ledger (reference Unit) ("s", "child")).run =
          some row →
        ((scheduled restoredChild).2.shared.tables.ledger (reference Unit) ("s", "child")).run =
          some row' →
        row.nextSeq = row'.nextSeq ∧ row.headHash = row'.headHash := by
  constructor
  · exact ledger_determined reference_collisionFree reference_encodesJson reference_encodesDict
      ("s", "child") (reaches_scheduled forkedChild) (reaches_scheduled appendedChild)
      (leaves_history childRecords_forkedChild) (leaves_history childRecords_appendedChild)
  · exact ledger_determined reference_collisionFree reference_encodesJson reference_encodesDict
      ("s", "child") (reaches_scheduled forkedChild) (reaches_scheduled restoredChild)
      (leaves_history childRecords_forkedChild) leaves_restored

end ActiveGraphSurreal
