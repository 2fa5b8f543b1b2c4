import ActiveGraphSurreal.Proofs.Handles
import ActiveGraphSurreal.Proofs.Reference

/-!
# Runs of many handles

Every run of the clients from an empty database, at the granularity of single calls. What
the clients commit to the log of a run is one sequential history, whoever commits and
whatever is lost on the way.
-/

namespace ActiveGraphSurreal

open Library Setting

set_option linter.unusedSectionVars false

variable {F X : Type} [Json.ScalarText F]

abbrev EventConfig (F X : Type) [Json.ScalarText F] :=
  Config Nat (Option (Handle F)) (EventOp F X) Call Answer (EventResult F X) Database

abbrev EventLabel (F X : Type) [Json.ScalarText F] :=
  Label Nat (Option (Handle F)) (EventOp F X) Call Answer (EventResult F X) Database

/-- An empty database and clients without handles. -/
def launch (F X : Type) [Json.ScalarText F] : EventConfig F X :=
  ⟨freshDatabase, fun _ => .idle none⟩

variable (env : Env F X) (sdk : Sdk) (lostCall lostAnswer : Prop)

/-- A run of the clients from an empty database. -/
def Reaches (tr : List (EventLabel F X)) (c : EventConfig F X) : Prop :=
  (eventSystem env sdk lostCall lostAnswer).Run (launch F X) tr c

variable {env sdk lostCall lostAnswer}

/-! ### The contract of the clients -/

lemma idle_of_past {l : Option (Handle F)} {s s' : Database} (h : Idle env l s)
    (hpast : Past s.tables s'.tables) : Idle env l s' := by
  intro handle hl
  obtain ⟨hsees, hpresent⟩ := h handle hl
  exact ⟨hsees, present_of_past hpresent hpast⟩

variable (sdk lostCall lostAnswer) in
def eventContract (hsha : CollisionFree env) (henc : EncodesJson env) (hdict : EncodesDict env) :
    Contract (eventSystem env sdk lostCall lostAnswer) where
  inv := Consistent env
  idle _ l s := Idle env l s
  rely i := (guarded env).Rely i
  guar i l op rec :=
    (engine sdk).serve (faults lostCall lostAnswer) i rec.call rec.before rec.answer rec.after ∧
      (client env sdk lostCall lostAnswer i l op).guar sdk rec
  post _ l op h a s := Ended env l op h a s
  rely_refl i s _ := (guarded env).rely_refl i s
  rely_trans i := (guarded env).rely_trans i
  idle_rely _ _ _ _ h hR := idle_of_past h hR.1
  post_rely _ _ _ _ _ _ _ h hR := ⟨idle_of_past h.1 hR.1, h.2⟩
  guar_inv _ _ _ _ hg hc := ((guarded env).served (engine sdk) hg.1 hg.2 hc).1
  guar_rely _ j _ _ _ hij hg hc :=
    ((guarded env).served (engine sdk) hg.1 hg.2 hc).2 j (Ne.symm hij)
  safe i l op _ hidle hc :=
    Prog.Safe.served (safe_code sdk lostCall lostAnswer i hsha henc hdict l op hc hidle)
  next _ _ _ _ _ _ h := h.1

lemma ledger_empty (g : String × String) : (Tables.empty.ledger env g).Absent := by
  have hlookup : ∀ {R : Type} {table : Table} (record : Except PyErr (RecordId table)),
      recordAt (∅ : Records R) record = none := by
    intro R table record
    cases record with
    | error e => rfl
    | ok record => rfl
  exact ⟨hlookup _, fun id => hlookup _⟩

lemma good_empty : Good env Tables.empty := by
  refine ⟨⟨fun key row h => ?_, fun key row h => ?_, fun row h => ?_⟩, fun g => ?_⟩
  · cases h
  · cases h
  · cases h
  · exact .inl (ledger_empty g)

lemma launch_ok (hsha : CollisionFree env) (henc : EncodesJson env) (hdict : EncodesDict env) :
    (eventContract sdk lostCall lostAnswer hsha henc hdict).Ok (launch F X) := by
  refine ⟨⟨good_empty, fun i tx h => ?_⟩, fun i handle h => ?_⟩
  · cases h
  · cases h

/-- A call commits nothing, or what its operation is allowed to. -/
inductive Commit (env : Env F X) (sdk : Sdk) (l : Option (Handle F)) (op : EventOp F X)
    (rec : Rec) : Prop
  | none (hsame : Same rec.before rec.after)
  | some {ws} (hcommits : (engine sdk).Commits ws rec.before rec.after)
      (hallows : Allows env sdk l op rec.call ws rec.before.tables)

/-- What is known of every step of a run. -/
structure StepFacts (env : Env F X) (sdk : Sdk) (c c' : EventConfig F X) (e : EventLabel F X) :
    Prop where
  good : Good env c.shared.tables
  good' : Good env c'.shared.tables
  still : (∀ i l op rec, e ≠ .call i l op rec) → c'.shared = c.shared
  call : ∀ i l op rec, e = .call i l op rec → rec.before = c.shared ∧ rec.after = c'.shared ∧
    Commit env sdk l op rec
  finish : ∀ i l op h a, e = .finish i l op h a → Outcome env l op h a.1

lemma commit_of_guar {i : Nat} {l : Option (Handle F)} {op : EventOp F X} {rec : Rec}
    (h : (client env sdk lostCall lostAnswer i l op).guar sdk rec) : Commit env sdk l op rec := by
  rcases h with ⟨ht, hlog⟩ | ⟨ws, hcommits, -, hallows⟩
  · exact .none ⟨ht, hlog⟩
  · exact .some hcommits hallows

theorem stepFacts (hsha : CollisionFree env) (henc : EncodesJson env) (hdict : EncodesDict env)
    {tr : List (EventLabel F X)} {c c' : EventConfig F X} {e : EventLabel F X}
    (hr : Reaches env sdk lostCall lostAnswer tr c)
    (hs : (eventSystem env sdk lostCall lostAnswer).Step c e c') : StepFacts env sdk c c' e := by
  let K := eventContract sdk lostCall lostAnswer hsha henc hdict
  have hok : K.Ok c := (K.sound (launch_ok hsha henc hdict) hr).1
  obtain ⟨hok', hlabel⟩ := K.step_ok hok hs
  refine ⟨hok.1.1, hok'.1.1, ?_, ?_, ?_⟩
  · intro hcall
    cases hs with
    | start op hi => rfl
    | call hi hserve => exact absurd rfl (hcall _ _ _ _)
    | finish hi => rfl
  · rintro i l op rec rfl
    cases hs with
    | call hi hserve => exact ⟨rfl, rfl, commit_of_guar hlabel.2.2⟩
  · rintro i l op h a rfl
    obtain ⟨s, -, hpost⟩ := hlabel
    exact hpost.2

lemma good_of_reaches (hsha : CollisionFree env) (henc : EncodesJson env) (hdict : EncodesDict env)
    {tr : List (EventLabel F X)} {c : EventConfig F X}
    (hr : Reaches env sdk lostCall lostAnswer tr c) : Good env c.shared.tables :=
  ((eventContract sdk lostCall lostAnswer hsha henc hdict).sound
    (launch_ok hsha henc hdict) hr).1.1.1

/-! ### What a commit does to the log of a run -/

section logs

variable {t t' : Tables} {g g' : String × String} {L : List (LogEvent F)}

lemma events_of_move (hgood' : Good env t') (h : Move env t t' g L) : t'.events g = L :=
  events_of_holds hgood'.keyed h.here

lemma events_of_move_other (hgood : Good env t) (hgood' : Good env t') (h : Move env t t' g' L)
    (hg : g ≠ g') : (t'.events g : List (LogEvent F)) = t.events g :=
  events_congr hgood' hgood (h.others g hg)

lemma events_of_move_same (hgood : Good env t) (hgood' : Good env t')
    (h : Move env t t' g' (t.events g')) : (t'.events g : List (LogEvent F)) = t.events g := by
  by_cases hg : g = g'
  · subst hg
    exact events_of_move hgood' h
  · exact events_of_move_other hgood hgood' h hg

lemma events_of_creates {ws : List Write} (hgood : Good env t)
    (hgood' : Good env ((engine sdk).applyAll ws t)) (h : Creates env sdk g' ws t) :
    (((engine sdk).applyAll ws t).events g : List (LogEvent F)) = t.events g := by
  have habsent : (t.events g' : List (LogEvent F)) = [] :=
    events_of_absent hgood.keyed (hgood.absent h.absent)
  have hmove := h.move
  rw [← habsent] at hmove
  exact events_of_move_same hgood hgood' hmove

lemma events_of_ofSchema {ws : List Write} (hgood : Good env t)
    (hgood' : Good env ((engine sdk).applyAll ws t)) (h : ∀ w ∈ ws, w.OfSchema) :
    (((engine sdk).applyAll ws t).events g : List (LogEvent F)) = t.events g :=
  events_congr hgood' hgood (ledger_ofSchema h t g)

end logs

/-- The step commits an operation to the log of the run. -/
def CommitsTo (g : String × String) : EventLabel F X → Prop
  | .call _ (some handle) (.append _) rec =>
    handle.store.address = g ∧ rec.after.log ≠ rec.before.log
  | .call _ (some handle) (.truncateAfter _) rec =>
    handle.store.address = g ∧ rec.after.log ≠ rec.before.log
  | .call _ (some handle) (.forkPrefix newRunId _ _ _ _) rec =>
    (handle.store.scope, newRunId) = g ∧ rec.call = .commit ∧ rec.after.log ≠ rec.before.log
  | _ => False

/-- The committed operations of a trace as one sequential history of the run, and the list
of events at its end. A run is born empty, or as a fork. -/
inductive History (env : Env F X) (g : String × String) :
    List (EventLabel F X) → List (LogEvent F) → Prop
  | nil : History env g [] []
  | other {tr L e} (h : History env g tr L) (he : ¬ CommitsTo g e) : History env g (tr ++ [e]) L
  | append {tr L i handle event rec e} (h : History env g tr L)
      (he : CommitsTo g (.call i (some handle) (.append event) rec)) (hview : handle.view = L)
      (hexpected : handle.store.expectedNextSeq = L.length) (hnormal : Normal env event e)
      (hnew : e.id ∉ L.map (·.id))
      (hrows : rec.after.tables.eventRows g.1 g.2 =
        rec.before.tables.eventRows g.1 g.2 ++ [appendedRow env g L e]) :
      History env g (tr ++ [.call i (some handle) (.append event) rec]) (L ++ [e])
  | truncate {tr pre e post i handle id rec} (h : History env g tr (pre ++ e :: post))
      (he : CommitsTo g (.call i (some handle) (.truncateAfter (F := F) (X := X) id) rec))
      (hview : handle.view = pre ++ e :: post) (hid : e.id = id)
      (hrows : rec.after.tables.eventRows g.1 g.2 =
        (rec.before.tables.eventRows g.1 g.2).take (pre.length + 1)) :
      History env g (tr ++ [.call i (some handle) (.truncateAfter id) rec]) (pre ++ [e])
  | fork {tr pre e post i handle id label now now' newRunId rec} (h : History env g tr [])
      (he : CommitsTo g
        (.call i (some handle) (.forkPrefix (F := F) (X := X) newRunId id label now now') rec))
      (hparent : rec.before.tables.events handle.store.address = pre ++ e :: post)
      (hid : e.id = id) :
      History env g (tr ++ [.call i (some handle) (.forkPrefix newRunId id label now now') rec])
        (pre ++ [e])

lemma logged_of_commitsTo {g : String × String} {i : Nat} {l : Option (Handle F)}
    {op : EventOp F X} {rec : Rec} (h : CommitsTo g (.call i l op rec)) :
    rec.after.log ≠ rec.before.log := by
  cases l with
  | none => exact absurd h id
  | some handle =>
    cases op with
    | append event => exact h.2
    | truncateAfter id => exact h.2
    | forkPrefix newRunId id label now now' => exact h.2.2
    | _ => exact absurd h id

lemma log_ne {ws : List Write} {db db' : Database} (h : (engine sdk).Commits ws db db') :
    db'.log ≠ db.log := by
  rw [h.2]
  simp

/-- One step of the run takes the history one step further. -/
lemma history_step {g : String × String} {tr : List (EventLabel F X)} {c c' : EventConfig F X}
    {e : EventLabel F X} (hf : StepFacts env sdk c c' e)
    (h : History env g tr (c.shared.tables.events g)) :
    History env g (tr ++ [e]) (c'.shared.tables.events g) := by
  have hsame : (c'.shared.tables.events g : List (LogEvent F)) = c.shared.tables.events g →
      ¬ CommitsTo g e →
      History env g (tr ++ [e]) (c'.shared.tables.events g) := by
    intro heq he
    rw [heq]
    exact .other h he
  cases e with
  | start i l op =>
    refine hsame ?_ id
    rw [hf.still (by simp)]
  | finish i l op h a =>
    refine hsame ?_ id
    rw [hf.still (by simp)]
  | call i l op rec =>
    obtain ⟨hbefore, hafter, hcommit⟩ := hf.call i l op rec rfl
    rw [← hbefore] at h
    rw [← hbefore, ← hafter] at hsame
    rw [← hafter]
    have hgood := hf.good
    have hgood' := hf.good'
    rw [← hbefore] at hgood
    rw [← hafter] at hgood'
    cases hcommit with
    | none hq =>
      apply hsame
      · rw [hq.tables]
      · intro he
        exact logged_of_commitsTo he hq.log
    | @some ws hcommits hallows =>
      have hlog := log_ne hcommits
      have htables := hcommits.1
      rw [htables] at hgood' hsame ⊢
      have hother : ∀ {L : List (LogEvent F)} {g'}, g ≠ g' →
          Move env rec.before.tables ((engine sdk).applyAll ws rec.before.tables) g' L →
          (((engine sdk).applyAll ws rec.before.tables).events g : List (LogEvent F)) =
            rec.before.tables.events g :=
        fun hg hmove => events_of_move_other hgood hgood' hmove hg
      cases op with
      | open_ runId scope now =>
        refine hsame ?_ (by cases l <;> exact id)
        cases l with
        | none =>
          rcases hallows.2 with hw | hw
          · exact events_of_ofSchema hgood hgood' hw
          · exact events_of_creates hgood hgood' hw
        | some handle =>
          rcases hallows.2 with hw | hw
          · exact events_of_ofSchema hgood hgood' hw
          · exact events_of_creates hgood hgood' hw
      | append event =>
        cases l with
        | none => exact hallows.elim
        | some handle =>
          obtain ⟨hcall, hsees, hview, M, ⟨e, hnormal, hnew, rfl⟩, hmove⟩ := hallows
          by_cases hg : handle.store.address = g
          · subst hg
            rw [hview] at h
            rw [events_of_move hgood' hmove]
            refine .append h ⟨rfl, hlog⟩ rfl hsees.nextSeq hnormal hnew ?_
            rw [htables, eventRows_eq hgood, eventRows_eq hgood', hview,
              events_of_move hgood' hmove, chainRows_concat]
            rfl
          · exact hsame (hother (Ne.symm hg) hmove) fun he => hg he.1
      | truncateAfter id =>
        cases l with
        | none => exact hallows.elim
        | some handle =>
          obtain ⟨hcall, hsees, hview, M, ⟨pre, e, post, hL, hid, rfl⟩, hmove⟩ := hallows
          by_cases hg : handle.store.address = g
          · subst hg
            rw [hview, hL] at h
            rw [events_of_move hgood' hmove]
            refine .truncate h ⟨rfl, hlog⟩ hL hid ?_
            rw [htables, eventRows_eq hgood, eventRows_eq hgood', hview, hL,
              events_of_move hgood' hmove, chainRows_take]
            congr 1
            simp [List.take_append]
          · exact hsame (hother (Ne.symm hg) hmove) fun he => hg he.1
      | forkPrefix newRunId id label now now' =>
        cases l with
        | none => exact hallows.elim
        | some handle =>
          rcases hallows with ⟨hcall, habsent, ⟨pre, e, post, hparent, hid, hmove⟩, -⟩ |
            ⟨hcall, hw | hw⟩
          · by_cases hg : (handle.store.scope, newRunId) = g
            · subst hg
              rw [events_of_absent hgood.keyed habsent] at h
              rw [events_of_move hgood' hmove]
              exact .fork h ⟨rfl, hcall, hlog⟩ hparent hid
            · exact hsame (hother (Ne.symm hg) hmove) fun he => hg he.1
          · exact hsame (events_of_ofSchema hgood hgood' hw) fun he => hcall he.2.1
          · exact hsame (events_of_creates hgood hgood' hw) fun he => hcall he.2.1
      | upsertRun patch createdAt =>
        cases l with
        | none => exact hallows.elim
        | some handle =>
          rcases hallows.2 with hw | hw
          · exact hsame (events_of_creates hgood hgood' hw) id
          · exact hsame (events_of_move_same hgood hgood' hw) id
      | iterEvents after until_ => cases l <;> exact hallows.elim
      | getEvent id => cases l <;> exact hallows.elim
      | count => cases l <;> exact hallows.elim
      | verifyIntegrity => cases l <;> exact hallows.elim
      | getRun => cases l <;> exact hallows.elim
      | close => cases l <;> exact hallows.elim

theorem history_run (hsha : CollisionFree env) (henc : EncodesJson env) (hdict : EncodesDict env)
    (g : String × String) {tr : List (EventLabel F X)} {c : EventConfig F X}
    (hr : Reaches env sdk lostCall lostAnswer tr c) :
    History env g tr (c.shared.tables.events g) := by
  induction hr with
  | nil => exact .nil
  | snoc hr hs ih => exact history_step (stepFacts hsha henc hdict hr hs) ih

/-! ### Writers that share a run -/

def EventOp.IsWrite : EventOp F X → Prop
  | append _ | truncateAfter _ => True
  | _ => False

/-- The list that a handle has observed is not the list of the run at any transaction that
the operation begins, or not at any commit of it. -/
def OutOfDate (handle : Handle F) (h : Hist) : Prop :=
  (∀ rec ∈ h, rec.call = .begin →
    rec.before.tables.events handle.store.address ≠ handle.view) ∨
  ∀ rec ∈ h, rec.call = .commit → rec.before.tables.events handle.store.address ≠ handle.view

lemma quiet_of_outOfDate {handle : Handle F} {grows : List (LogEvent F) → Prop} {h : Hist}
    {r : Except PyErr (EventValue F X)} (ho : WriteOutcome env handle grows h r)
    (hout : OutOfDate handle h) : (∃ e, r = .error e) ∧ Quiet h := by
  have htaken : ∀ {M r' s s'}, ¬ Takes env handle.store handle.view M r' h s s' := by
    intro M r' s s' htakes
    obtain ⟨h₁, h₂, sb, sb', rfl, -, -, hbegin, hview⟩ := htakes.split
    rcases hout with hout | hout
    · exact hout _ (List.mem_append_left _ hbegin) rfl hview
    · exact hout _ (List.mem_append_right _ (List.mem_cons_self ..)) rfl htakes.before
  cases ho with
  | committed hgrows htakes => exact absurd htakes htaken
  | refused hq => exact ⟨⟨_, rfl⟩, hq⟩
  | unacked hgrows htakes => exact absurd htakes htaken

lemma outcome_of_finish (hsha : CollisionFree env) (henc : EncodesJson env)
    (hdict : EncodesDict env) {tr : List (EventLabel F X)} {c : EventConfig F X}
    (hr : Reaches env sdk lostCall lostAnswer tr c) {i : Nat} {l : Option (Handle F)}
    {op : EventOp F X} {h : Hist} {a : EventResult F X} (hmem : .finish i l op h a ∈ tr) :
    Outcome env l op h a.1 := by
  obtain ⟨s, -, hpost⟩ := ((eventContract sdk lostCall lostAnswer hsha henc hdict).sound
    (launch_ok hsha henc hdict) hr).2 _ hmem
  exact hpost.2

/-- In every run of the clients, the committed operations on one run form a sequential
history that starts each time from the list its handle has observed last. The stored rows
are the chain of its list, and a handle whose list is out of date commits nothing. -/
theorem one_history (hsha : CollisionFree env) (henc : EncodesJson env) (hdict : EncodesDict env)
    (g : String × String) {tr : List (EventLabel F X)} {c : EventConfig F X}
    (hr : Reaches env sdk lostCall lostAnswer tr c) :
    (∃ L : List (LogEvent F), History env g tr L ∧ (L.map (·.id)).Nodup ∧
      c.shared.tables.eventRows g.1 g.2 = chainRows env g.1 g.2 L) ∧
    ∀ i handle op h a, .finish i (some handle) op h a ∈ tr → handle.store.address = g →
      op.IsWrite →
      Outcome env (some handle) op h a.1 ∧
      (OutOfDate handle h → (∃ e, a.1 = .error e) ∧ Quiet h) := by
  have hgood := good_of_reaches hsha henc hdict hr
  refine ⟨⟨_, history_run hsha henc hdict g hr, nodup_events hgood g, eventRows_eq hgood g⟩, ?_⟩
  intro i handle op h a hmem _ hwrite
  have houtcome := outcome_of_finish hsha henc hdict hr hmem
  refine ⟨houtcome, fun hout => ?_⟩
  cases op with
  | append event => exact quiet_of_outOfDate houtcome hout
  | truncateAfter id => exact quiet_of_outOfDate houtcome hout
  | _ => exact hwrite.elim

abbrev EventOrders := List (System.Order Nat (EventOp Unit Empty))

/-- A schedule of the reference environment on an empty database. -/
def scheduled (orders : EventOrders) : List (EventLabel Unit Empty) × EventConfig Unit Empty :=
  (eventSystem (reference Unit) referenceSdk False False).schedule (performAll referenceSdk)
    (launch Unit Empty) orders

lemma reaches_scheduled (orders : EventOrders) :
    Reaches (reference Unit) referenceSdk False False (scheduled orders).1 (scheduled orders).2 :=
  System.Run.schedule (fun _ _ _ => Or.inl rfl) .nil orders

/-- Two handles are open, and the first one commits before the second one tries to. -/
def staleWriter : EventOrders :=
  [.start 0 (.open_ "r" "s" "now"), .finish 0, .start 1 (.open_ "r" "s" "now"), .finish 1,
    .start 1 (.append (referenceEvent "b")), .step 1,
    .start 0 (.append (referenceEvent "a")), .finish 0, .finish 1]

theorem one_history_staleWriter :
    (∃ L : List (LogEvent Unit), History (reference Unit) ("s", "r") (scheduled staleWriter).1 L ∧
      (L.map (·.id)).Nodup ∧ (scheduled staleWriter).2.shared.tables.eventRows "s" "r" =
        chainRows (reference Unit) "s" "r" L) ∧
    ∀ i handle op h a, .finish i (some handle) op h a ∈ (scheduled staleWriter).1 →
      handle.store.address = ("s", "r") → op.IsWrite →
      Outcome (reference Unit) (some handle) op h a.1 ∧
      (OutOfDate handle h → (∃ e, a.1 = .error e) ∧ Quiet h) :=
  one_history reference_collisionFree reference_encodesJson reference_encodesDict ("s", "r")
    (reaches_scheduled staleWriter)

/-! ### Readers among writers -/

/-- The run whose ledger an operation verifies for its caller. -/
def EventOp.verifies : Option (Handle F) → EventOp F X → Option (String × String)
  | _, open_ runId scope _ => some (scope, runId)
  | some handle, iterEvents _ _ => some handle.store.address
  | some handle, verifyIntegrity => some handle.store.address
  | _, _ => none

lemma raises_iff_torn {l : Option (Handle F)} {op : EventOp F X} {g : String × String} {h : Hist}
    {r : Except PyErr (EventValue F X)} (hop : op.verifies l = some g)
    (ho : Outcome env l op h r) : RaisesIntegrity r ↔ Torn env g h := by
  cases op with
  | open_ runId scope now =>
    obtain rfl : (scope, runId) = g := by cases l <;> exact Option.some.inj hop
    cases l <;> exact ho
  | iterEvents after until_ =>
    cases l with
    | none => cases hop
    | some handle =>
      obtain rfl := Option.some.inj hop
      exact ho
  | verifyIntegrity =>
    cases l with
    | none => cases hop
    | some handle =>
      obtain rfl := Option.some.inj hop
      exact ho
  | _ => cases l <;> cases hop

/-- Readers never report a broken ledger exactly in the runs in which, at each of their
reads, the run has one list of events when the rows and when the head is read. -/
theorem never_raises_iff_never_torn (hsha : CollisionFree env) (henc : EncodesJson env)
    (hdict : EncodesDict env) {tr : List (EventLabel F X)} {c : EventConfig F X}
    (hr : Reaches env sdk lostCall lostAnswer tr c) :
    (∀ i l op h a g, .finish i l op h a ∈ tr → op.verifies l = some g → ¬ RaisesIntegrity a.1) ↔
      ∀ i l op h a g, .finish i l op h a ∈ tr → op.verifies l = some g → ¬ Torn env g h := by
  constructor
  · intro hraises i l op h a g hmem hop htorn
    have houtcome := outcome_of_finish hsha henc hdict hr hmem
    exact hraises i l op h a g hmem hop ((raises_iff_torn hop houtcome).mpr htorn)
  · intro htorn i l op h a g hmem hop hraises
    have houtcome := outcome_of_finish hsha henc hdict hr hmem
    exact htorn i l op h a g hmem hop ((raises_iff_torn hop houtcome).mp hraises)

/-- An append commits between the two queries of a verification. -/
def tornReader : EventOrders :=
  [.start 0 (.open_ "r" "s" "now"), .finish 0, .start 1 (.open_ "r" "s" "now"), .finish 1,
    .start 0 .verifyIntegrity, .step 0, .start 1 (.append (referenceEvent "a")), .finish 1,
    .finish 0]

theorem never_raises_iff_never_torn_tornReader :
    (∀ i l op h a g, .finish i l op h a ∈ (scheduled tornReader).1 → op.verifies l = some g →
      ¬ RaisesIntegrity a.1) ↔
    ∀ i l op h a g, .finish i l op h a ∈ (scheduled tornReader).1 → op.verifies l = some g →
      ¬ Torn (reference Unit) g h :=
  never_raises_iff_never_torn reference_collisionFree reference_encodesJson reference_encodesDict
    (reaches_scheduled tornReader)

/-- The label is that of a verification that reports a broken ledger. -/
def raisesIntegrity : EventLabel Unit Empty → Bool
  | .finish _ l op _ (.error e, _) => (op.verifies l).isSome && e.cls = .ledgerIntegrityError
  | _ => false

theorem torn_reader_raises :
    ¬ ∀ tr c, Reaches (reference Unit) referenceSdk False False tr c →
      ∀ i l op h a g, .finish i l op h a ∈ tr → op.verifies l = some g → ¬ RaisesIntegrity a.1 := by
  intro hnever
  have hany : (scheduled tornReader).1.any raisesIntegrity = true := by decide +kernel
  obtain ⟨e, hmem, he⟩ := List.any_eq_true.mp hany
  unfold raisesIntegrity at he
  split at he
  · next i l op h e store =>
    rw [Bool.and_eq_true] at he
    obtain ⟨g, hg⟩ := Option.isSome_iff_exists.mp he.1
    exact hnever _ _ (reaches_scheduled tornReader) _ _ _ _ _ g hmem hg
      ⟨e, rfl, of_decide_eq_true he.2⟩
  · cases he

/-! ### Forks among writers -/

lemma commit_of_call (hsha : CollisionFree env) (henc : EncodesJson env) (hdict : EncodesDict env)
    {tr : List (EventLabel F X)} {c : EventConfig F X}
    (hr : Reaches env sdk lostCall lostAnswer tr c) {i : Nat} {l : Option (Handle F)}
    {op : EventOp F X} {rec : Rec} (hmem : .call i l op rec ∈ tr) :
    Good env rec.before.tables ∧ Good env rec.after.tables ∧ Commit env sdk l op rec := by
  let K := eventContract sdk lostCall lostAnswer hsha henc hdict
  have hlabel : K.LabelOk (.call i l op rec) := (K.sound (launch_ok hsha henc hdict) hr).2 _ hmem
  exact ⟨hlabel.1.1, (K.guar_inv i l op rec hlabel.2 hlabel.1).1, commit_of_guar hlabel.2.2⟩

/-- A fork that commits makes an absent run the inclusive prefix of its parent as it stands at
the commit. A write to one run leaves every other one as it is. -/
theorem fork_commits (hsha : CollisionFree env) (henc : EncodesJson env) (hdict : EncodesDict env)
    {tr : List (EventLabel F X)} {c : EventConfig F X}
    (hr : Reaches env sdk lostCall lostAnswer tr c) :
    (∀ i handle newRunId id label now now' rec,
      .call i (some handle) (.forkPrefix newRunId id label now now') rec ∈ tr →
      rec.call = .commit → rec.after.log ≠ rec.before.log →
      (rec.before.tables.ledger env (handle.store.scope, newRunId)).Absent ∧
      (∃ pre e post, rec.before.tables.events handle.store.address = pre ++ e :: post ∧ e.id = id ∧
        rec.after.tables.events (handle.store.scope, newRunId) = pre ++ [e] ∧
        rec.after.tables.eventRows handle.store.scope newRunId =
          chainRows env handle.store.scope newRunId (pre ++ [e]) ∧
        ∃ row, (rec.after.tables.ledger env (handle.store.scope, newRunId)).run = some row ∧
          Ledger.HeadOf env (handle.store.scope, newRunId) (pre ++ [e]) row) ∧
      rec.after.tables.ledger env handle.store.address =
        rec.before.tables.ledger env handle.store.address) ∧
    ∀ i handle op rec g, .call i (some handle) op rec ∈ tr → op.IsWrite →
      g ≠ handle.store.address → rec.after.tables.ledger env g = rec.before.tables.ledger env g := by
  constructor
  · intro i handle newRunId id label now now' rec hmem hcall hlog
    obtain ⟨-, hgood', hcommit⟩ := commit_of_call hsha henc hdict hr hmem
    cases hcommit with
    | none hsame => exact absurd hsame.log hlog
    | @some ws hcommits hallows =>
      rcases hallows with ⟨-, hforks⟩ | ⟨hne, -⟩
      · rw [hcommits.1] at hgood' ⊢
        obtain ⟨pre, e, post, hparent, hid, hmove⟩ := hforks.split
        have hchild := events_of_move hgood' hmove
        refine ⟨hforks.absent, ⟨pre, e, post, hparent, hid, hchild, ?_, hmove.here.run⟩,
          hforks.parent⟩
        exact eventRows_of_holds hgood'.keyed hmove.here
      · exact absurd hcall hne
  · intro i handle op rec g hmem hwrite hg
    obtain ⟨-, -, hcommit⟩ := commit_of_call hsha henc hdict hr hmem
    cases hcommit with
    | none hsame => rw [hsame.tables]
    | some hcommits hallows =>
      rw [hcommits.1]
      cases op with
      | append event =>
        obtain ⟨-, -, -, M, -, hmove⟩ := hallows
        exact hmove.others g hg
      | truncateAfter id =>
        obtain ⟨-, -, -, M, -, hmove⟩ := hallows
        exact hmove.others g hg
      | _ => exact hwrite.elim

/-- A fork at the first of two events. -/
def forkedRun : EventOrders :=
  [.start 0 (.open_ "r" "s" "now"), .finish 0, .start 0 (.append (referenceEvent "a")), .finish 0,
    .start 0 (.append (referenceEvent "b")), .finish 0,
    .start 0 (.forkPrefix "child" "a" none "now" "now"), .finish 0]

theorem fork_commits_forkedRun :
    (∀ i (handle : Handle Unit) newRunId id label now now' rec,
      .call i (some handle) (.forkPrefix newRunId id label now now') rec ∈
        (scheduled forkedRun).1 →
      rec.call = .commit → rec.after.log ≠ rec.before.log →
      (rec.before.tables.ledger (reference Unit) (handle.store.scope, newRunId)).Absent ∧
      (∃ pre e post, (rec.before.tables.events handle.store.address : List (LogEvent Unit)) =
          pre ++ e :: post ∧ e.id = id ∧
        rec.after.tables.events (handle.store.scope, newRunId) = pre ++ [e] ∧
        rec.after.tables.eventRows handle.store.scope newRunId =
          chainRows (reference Unit) handle.store.scope newRunId (pre ++ [e]) ∧
        ∃ row, (rec.after.tables.ledger (reference Unit)
            (handle.store.scope, newRunId)).run = some row ∧
          Ledger.HeadOf (reference Unit) (handle.store.scope, newRunId) (pre ++ [e]) row) ∧
      rec.after.tables.ledger (reference Unit) handle.store.address =
        rec.before.tables.ledger (reference Unit) handle.store.address) ∧
    ∀ i (handle : Handle Unit) op rec g, .call i (some handle) op rec ∈ (scheduled forkedRun).1 →
      op.IsWrite → g ≠ handle.store.address →
      rec.after.tables.ledger (reference Unit) g = rec.before.tables.ledger (reference Unit) g :=
  fork_commits reference_collisionFree reference_encodesJson reference_encodesDict
    (reaches_scheduled forkedRun)

end ActiveGraphSurreal
