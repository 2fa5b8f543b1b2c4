import ActiveGraphSurreal.Proofs.Ledger

/-!
# What the commits of the provider do to ledgers

The writes of an append, of a truncation and of a fork give one ledger a new list of events
and leave every other ledger alone.
-/

namespace ActiveGraphSurreal

open Library

set_option linter.unusedSectionVars false

variable {F X : Type} [Json.ScalarText F] {env : Env F X} {sdk : Sdk}

/-- Every ledger is guarded by its run record. -/
def guardOf (env : Env F X) (g : String × String) : Target :=
  match runKey env g with
  | .ok record => .record .agRun record.key
  | .error _ => .record .agRun ""

def guarded (env : Env F X) : Guarded Tables Target (String × String) Ledger where
  part g t := t.ledger env g
  guard := guardOf env
  Good := Good env
  Past := Past
  past_refl := past_refl
  past_trans := past_trans

/-- The ledger of one run gets a list of events, the others stay. -/
structure Move (env : Env F X) (t t' : Tables) (g : String × String) (L : List (LogEvent F)) :
    Prop where
  here : (t'.ledger env g).Holds env g L
  others : ∀ g', g' ≠ g → t'.ledger env g' = t.ledger env g'

lemma good_of_move {t t' : Tables} {g : String × String} {L : List (LogEvent F)}
    (hgood : Good env t) (hkeyed : Keyed env t') (hmove : Move env t t' g L) : Good env t' := by
  refine ⟨hkeyed, fun g' => ?_⟩
  by_cases hg : g' = g
  · subst hg
    exact .inr ⟨L, hmove.here⟩
  · rw [hmove.others g' hg]
    exact hgood.ledger g'

theorem lawful_of_move {ws : List Write} {t : Tables} {g : String × String}
    {L : List (LogEvent F)} (hgood : Good env t) (hws : ∀ w ∈ ws, w.Proper env)
    (hguard : guardOf env g ∈ ws.map Write.target)
    (hmove : Move env t ((engine sdk).applyAll ws t) g L) :
    (guarded env).Lawful (engine sdk) ws t := by
  obtain ⟨hkeyed, hpast⟩ := proper_applyAll sdk hws hgood.keyed
  refine ⟨good_of_move hgood hkeyed hmove, hpast, fun g' hg' => ?_⟩
  apply hmove.others
  rintro rfl
  exact hg' hguard

theorem lawful_of_same {ws : List Write} {t : Tables} (hgood : Good env t)
    (hws : ∀ w ∈ ws, w.Proper env)
    (hsame : ∀ g, ((engine sdk).applyAll ws t).ledger env g = t.ledger env g) :
    (guarded env).Lawful (engine sdk) ws t := by
  obtain ⟨hkeyed, hpast⟩ := proper_applyAll sdk hws hgood.keyed
  refine ⟨⟨hkeyed, fun g => ?_⟩, hpast, fun g _ => hsame g⟩
  rw [hsame g]
  exact hgood.ledger g

/-! ### Keys -/

lemma runKey_inj (hsha : CollisionFree env) {g g' : String × String} {rec : RecordId .agRun}
    (h : runKey env g = .ok rec) (h' : runKey env g' = .ok rec) : g = g' := by
  have hparts := recordId_inj hsha h h'
  simp only [List.cons.injEq, and_true] at hparts
  exact Prod.ext hparts.1 hparts.2

lemma eventKey_inj (hsha : CollisionFree env) {g g' : String × String} {id id' : String}
    {rec : RecordId .agEvent} (h : eventKey env g id = .ok rec)
    (h' : eventKey env g' id' = .ok rec) : g = g' ∧ id = id' := by
  have hparts := recordId_inj hsha h h'
  simp only [List.cons.injEq, and_true] at hparts
  exact ⟨Prod.ext hparts.1 hparts.2.1, hparts.2.2⟩

lemma isRecord_runKey (hsha : CollisionFree env) {g : String × String} {rec : RecordId .agRun}
    (h : runKey env g = .ok rec) (g' : String × String) :
    isRecord (runKey env g') rec.key ↔ g' = g := by
  rw [isRecord_iff]
  constructor
  · intro h'
    exact runKey_inj hsha h' h
  · rintro rfl
    exact h

lemma isRecord_eventKey (hsha : CollisionFree env) {g : String × String} {id : String}
    {rec : RecordId .agEvent} (h : eventKey env g id = .ok rec) (g' : String × String)
    (id' : String) : isRecord (eventKey env g' id') rec.key ↔ g' = g ∧ id' = id := by
  rw [isRecord_iff]
  constructor
  · intro h'
    exact eventKey_inj hsha h' h
  · rintro ⟨rfl, rfl⟩
    exact h

lemma guardOf_eq {g : String × String} {rec : RecordId .agRun} (h : runKey env g = .ok rec) :
    guardOf env g = .record .agRun rec.key := by
  unfold guardOf
  rw [h]

/-! ### Single writes to a ledger -/

lemma write_run_here (hsha : CollisionFree env) {g : String × String} {rec : RecordId .agRun}
    (h : runKey env g = .ok rec) (p : Ledger) (row : Option RunRow) :
    p.write env g (.run rec.key row) = { p with run := row } := by
  rw [ledgerWrite_run, if_pos ((isRecord_runKey hsha h g).mpr rfl)]

lemma write_run_other (hsha : CollisionFree env) {g g' : String × String} {rec : RecordId .agRun}
    (h : runKey env g = .ok rec) (hne : g' ≠ g) (p : Ledger) (row : Option RunRow) :
    p.write env g' (.run rec.key row) = p := by
  rw [ledgerWrite_run, if_neg fun hrec => hne ((isRecord_runKey hsha h g').mp hrec)]

lemma write_event_here (hsha : CollisionFree env) {g : String × String} {id : String}
    {rec : RecordId .agEvent} (h : eventKey env g id = .ok rec) (p : Ledger)
    (row : Option EventRow) :
    p.write env g (.event rec.key row) =
      { p with event := fun id' => if id' = id then row else p.event id' } := by
  simp only [ledgerWrite_event, isRecord_eventKey hsha h, true_and]

lemma write_event_other (hsha : CollisionFree env) {g g' : String × String} {id : String}
    {rec : RecordId .agEvent} (h : eventKey env g id = .ok rec) (hne : g' ≠ g) (p : Ledger)
    (row : Option EventRow) : p.write env g' (.event rec.key row) = p := by
  simp [ledgerWrite_event, isRecord_eventKey hsha h, hne]

/-! ### A new run -/

lemma holds_nil {g : String × String} {p : Ledger} {row : RunRow} (hrow : p.run = some row)
    (hhead : Ledger.HeadOf env g ([] : List (LogEvent F)) row) (hevent : ∀ id, p.event id = none) :
    p.Holds env g [] := by
  refine ⟨⟨row, hrow, hhead⟩, fun id row => ?_, List.nodup_nil⟩
  simp [hevent, chainRows, rowsFrom]

variable (sdk) in
theorem create_move (hsha : CollisionFree env) {t : Tables} {g : String × String}
    {rec : RecordId .agRun} {row : RunRow} (hrec : runKey env g = .ok rec)
    (habs : (t.ledger env g).Absent)
    (hhead : Ledger.HeadOf env g ([] : List (LogEvent F)) row) :
    Move env t ((engine sdk).applyAll [.run rec.key (some row)] t) g [] := by
  constructor
  · rw [ledger_applyAll, List.foldl_cons, List.foldl_nil, write_run_here hsha hrec]
    exact holds_nil rfl hhead habs.2
  · intro g' hg'
    rw [ledger_applyAll, List.foldl_cons, List.foldl_nil, write_run_other hsha hrec hg']

variable (sdk) in
/-- A new row with the old head, as `upsert_run` writes it. -/
theorem describe_move (hsha : CollisionFree env) {t : Tables} {g : String × String}
    {rec : RecordId .agRun} {row : RunRow} {L : List (LogEvent F)}
    (hrec : runKey env g = .ok rec) (hL : (t.ledger env g).Holds env g L)
    (hhead : Ledger.HeadOf env g L row) :
    Move env t ((engine sdk).applyAll [.run rec.key (some row)] t) g L := by
  constructor
  · rw [ledger_applyAll, List.foldl_cons, List.foldl_nil, write_run_here hsha hrec]
    exact ⟨⟨row, rfl, hhead⟩, hL.event, hL.ids⟩
  · intro g' hg'
    rw [ledger_applyAll, List.foldl_cons, List.foldl_nil, write_run_other hsha hrec hg']

/-! ### Append -/

/-- The row of an event appended to a list. -/
def appendedRow (env : Env F X) (g : String × String) (L : List (LogEvent F)) (e : LogEvent F) :
    EventRow :=
  EventStore.eventRow g.1 g.2 e.record L.length (headOf env g.1 g.2 L)
    (e.link env g.1 g.2 L.length (headOf env g.1 g.2 L))

/-- The writes of `append`. -/
def appendWrites (env : Env F X) (g : String × String) (ek : RecordId .agEvent)
    (rk : RecordId .agRun) (row : RunRow) (L : List (LogEvent F)) (e : LogEvent F) : List Write := [
  .event ek.key (some (appendedRow env g L e)),
  .run rk.key (some { row with
    nextSeq := L.length + 1
    headHash := some (e.link env g.1 g.2 L.length (headOf env g.1 g.2 L)) })]

theorem append_move (hsha : CollisionFree env) {t : Tables} {g : String × String}
    {rk : RecordId .agRun} {ek : RecordId .agEvent} {row : RunRow} {L : List (LogEvent F)}
    {e : LogEvent F} (hrk : runKey env g = .ok rk) (hek : eventKey env g e.id = .ok ek)
    (hL : (t.ledger env g).Holds env g L) (hrow : Ledger.HeadOf env g L row)
    (hnew : e.id ∉ L.map (·.id)) :
    Move env t ((engine sdk).applyAll (appendWrites env g ek rk row L e) t) g (L ++ [e]) := by
  constructor
  · rw [ledger_applyAll, appendWrites, List.foldl_cons, List.foldl_cons, List.foldl_nil,
      write_event_here hsha hek, write_run_here hsha hrk]
    refine ⟨⟨_, rfl, hrow.scope, hrow.runId, by simp, by simp⟩, fun id r => ?_, ?_⟩
    · rw [chainRows_concat, List.mem_append, List.mem_singleton]
      simp only
      by_cases hid : id = e.id
      · subst hid
        rw [if_pos rfl, Option.some.injEq]
        constructor
        · rintro rfl
          exact ⟨.inr rfl, rfl⟩
        · rintro ⟨hmem | rfl, hr⟩
          · refine absurd ?_ hnew
            rw [← eventIds_chainRows env g.1 g.2, ← hr]
            exact List.mem_map_of_mem hmem
          · rfl
      · rw [if_neg hid, hL.event]
        refine and_congr_left fun hr => ?_
        constructor
        · exact Or.inl
        · rintro (hmem | rfl)
          · exact hmem
          · exact absurd hr.symm hid
    · rw [List.map_append, List.nodup_append]
      refine ⟨hL.ids, by simp, ?_⟩
      rintro a ha b hb rfl
      rw [List.map_singleton, List.mem_singleton] at hb
      exact hnew (hb ▸ ha)
  · intro g' hg'
    rw [ledger_applyAll, appendWrites, List.foldl_cons, List.foldl_cons, List.foldl_nil,
      write_event_other hsha hek hg', write_run_other hsha hrk hg']

lemma append_proper {g : String × String} {rk : RecordId .agRun} {ek : RecordId .agEvent}
    {row : RunRow} {L : List (LogEvent F)} {e : LogEvent F} (hrk : runKey env g = .ok rk)
    (hek : eventKey env g e.id = .ok ek) (hrow : Ledger.HeadOf env g L row) :
    ∀ w ∈ appendWrites env g ek rk row L e, w.Proper env := by
  intro w hw
  simp only [appendWrites, List.mem_cons, List.not_mem_nil, or_false] at hw
  rcases hw with rfl | rfl
  · intro r hr
    obtain rfl := Option.some.inj hr
    exact hek
  · exact ⟨_, rfl, by simpa [hrow.scope, hrow.runId] using hrk⟩

/-! ### Truncation -/

/-- The writes of `truncate_after` at a row, `keys` being those of the rows after it. -/
def truncateWrites (keys : List String) (rk : RecordId .agRun) (row : RunRow) (cutoff : EventRow) :
    List Write :=
  keys.map (.event · none) ++
    [.run rk.key (some { row with nextSeq := cutoff.seq + 1, headHash := some cutoff.hash })]

lemma foldl_delete (keys : List String) (g : String × String) (p : Ledger) :
    (keys.map fun key => Write.event key none).foldl (Ledger.write env g) p =
      { p with event := fun id =>
          if keys.any fun key => isRecord (eventKey env g id) key then none else p.event id } := by
  induction keys generalizing p with
  | nil => rfl
  | cons key keys ih =>
    rw [List.map_cons, List.foldl_cons, ih]
    apply Ledger.ext
    · rfl
    · funext id
      simp only [ledgerWrite_event, List.any_cons, Bool.or_eq_true]
      by_cases hkey : isRecord (eventKey env g id) key = true
      · simp [hkey]
      · simp [hkey]

theorem truncate_move (hsha : CollisionFree env) {t : Tables} {g : String × String}
    {rk : RecordId .agRun} {row : RunRow} {keys : List String} {pre post : List (LogEvent F)}
    {e : LogEvent F} (hrk : runKey env g = .ok rk)
    (hL : (t.ledger env g).Holds env g (pre ++ e :: post))
    (hrow : Ledger.HeadOf env g (pre ++ e :: post) row)
    (hkeys : ∀ key, key ∈ keys ↔ ∃ id r, eventKey env g id = .ok ⟨key⟩ ∧
      (t.ledger env g).event id = some r ∧ (pre.length : Int) < r.seq) :
    Move env t ((engine sdk).applyAll (truncateWrites keys rk row (appendedRow env g pre e)) t) g
      (pre ++ [e]) := by
  have hids : ((pre ++ [e]).map (·.id)).Nodup := by
    have h := hL.ids
    rw [show pre ++ e :: post = (pre ++ [e]) ++ post by simp, List.map_append] at h
    exact (List.nodup_append.mp h).1
  have htake : pre ++ [e] = (pre ++ e :: post).take (pre.length + 1) := by
    rw [List.take_length_add_append, List.take_succ_cons, List.take_zero]
  constructor
  · rw [ledger_applyAll, truncateWrites, List.foldl_append, foldl_delete, List.foldl_cons,
      List.foldl_nil, write_run_here hsha hrk]
    refine ⟨⟨_, rfl, hrow.scope, hrow.runId, by simp [appendedRow, EventStore.eventRow],
      by simp [appendedRow, EventStore.eventRow]⟩, fun id r => ?_, hids⟩
    have hdeleted : (keys.any fun key => isRecord (eventKey env g id) key) ↔
        ∃ r, (t.ledger env g).event id = some r ∧ (pre.length : Int) < r.seq := by
      simp only [List.any_eq_true, isRecord_iff, hkeys]
      constructor
      · rintro ⟨key, ⟨id', r, hkey', hevent, hlt⟩, hkey⟩
        obtain ⟨-, rfl⟩ := eventKey_inj hsha hkey hkey'
        exact ⟨r, hevent, hlt⟩
      · rintro ⟨r, hevent, hlt⟩
        obtain ⟨key, hkey, -⟩ := recordAt_eq_some hevent
        exact ⟨key, ⟨id, r, hkey, hevent, hlt⟩, hkey⟩
    simp only
    rw [htake, mem_chainRows_take]
    by_cases hdel : (keys.any fun key => isRecord (eventKey env g id) key) = true
    · obtain ⟨r', hevent', hlt⟩ := hdeleted.mp hdel
      rw [if_pos hdel]
      constructor
      · intro h
        cases h
      · rintro ⟨⟨hmem, hle⟩, hr⟩
        have hevent := (hL.event id r).mpr ⟨hmem, hr⟩
        obtain rfl : r' = r := Option.some.inj (hevent'.symm.trans hevent)
        omega
    · rw [if_neg hdel, hL.event]
      constructor
      · rintro ⟨hmem, hr⟩
        refine ⟨⟨hmem, ?_⟩, hr⟩
        by_contra hge
        exact hdel (hdeleted.mpr ⟨r, (hL.event id r).mpr ⟨hmem, hr⟩, by omega⟩)
      · rintro ⟨⟨hmem, -⟩, hr⟩
        exact ⟨hmem, hr⟩
  · intro g' hg'
    rw [ledger_applyAll, truncateWrites, List.foldl_append, foldl_delete, List.foldl_cons,
      List.foldl_nil, write_run_other hsha hrk hg']
    apply Ledger.ext
    · rfl
    · funext id
      simp only
      rw [if_neg]
      simp only [List.any_eq_true, isRecord_iff, hkeys, not_exists, not_and]
      rintro key ⟨id', r, hkey', -⟩ hkey
      exact hg' (eventKey_inj hsha hkey hkey').1

lemma truncate_proper {g : String × String} {rk : RecordId .agRun} {row : RunRow}
    {keys : List String} {cutoff : EventRow} {L : List (LogEvent F)}
    (hrk : runKey env g = .ok rk) (hrow : Ledger.HeadOf env g L row) :
    ∀ w ∈ truncateWrites keys rk row cutoff, w.Proper env := by
  intro w hw
  rw [truncateWrites, List.mem_append, List.mem_map, List.mem_singleton] at hw
  rcases hw with ⟨key, -, rfl⟩ | rfl
  · intro r hr
    cases hr
  · exact ⟨_, rfl, by simpa [hrow.scope, hrow.runId] using hrk⟩

/-! ### Fork -/

/-- The writes of `fork_prefix`: the parent's row again, the child's row and events. -/
def forkWrites (pk : RecordId .agRun) (parent : RunRow) (ck : RecordId .agRun) (child : RunRow)
    (rows : List (RecordId .agEvent × EventRow)) : List Write :=
  [.run pk.key (some parent), .run ck.key (some child)] ++
    rows.map fun row => .event row.1.key (some row.2)

variable (env) in
lemma foldl_create (rows : List (RecordId .agEvent × EventRow)) (g : String × String)
    (p : Ledger) (hkeys : (rows.map Prod.fst).Nodup) :
    ((rows.map fun row => Write.event row.1.key (some row.2)).foldl (Ledger.write env g) p).run =
      p.run ∧
    ∀ id row, ((rows.map fun row => Write.event row.1.key (some row.2)).foldl
        (Ledger.write env g) p).event id = some row ↔
      (∃ rec, (rec, row) ∈ rows ∧ eventKey env g id = .ok rec) ∨
      ((∀ x ∈ rows, eventKey env g id ≠ .ok x.1) ∧ p.event id = some row) := by
  induction rows generalizing p with
  | nil => simp
  | cons x rows ih =>
    obtain ⟨rec, r⟩ := x
    rw [List.map_cons, List.nodup_cons] at hkeys
    obtain ⟨hrun, hevent⟩ := ih (p.write env g (.event rec.key (some r))) hkeys.2
    refine ⟨hrun, fun id row => ?_⟩
    rw [List.map_cons, List.foldl_cons, hevent]
    have hcond : isRecord (eventKey env g id) rec.key ↔ eventKey env g id = .ok rec := isRecord_iff
    simp only [ledgerWrite_event, hcond, List.mem_cons, Prod.mk.injEq, forall_eq_or_imp]
    by_cases hrec : eventKey env g id = .ok rec
    · have hfresh : ∀ x ∈ rows, eventKey env g id ≠ .ok x.1 := by
        intro x hx h
        rw [hrec, Except.ok.injEq] at h
        exact hkeys.1 (List.mem_map.mpr ⟨x, hx, h.symm⟩)
      have hnone : ¬ ∃ rec', (rec', row) ∈ rows ∧ eventKey env g id = .ok rec' := by
        rintro ⟨rec', hmem, h⟩
        exact hfresh _ hmem h
      rw [if_pos hrec]
      constructor
      · rintro (h | ⟨-, h⟩)
        · exact absurd h hnone
        · exact .inl ⟨rec, .inl ⟨rfl, (Option.some.inj h).symm⟩, hrec⟩
      · rintro (⟨rec', ⟨rfl, rfl⟩ | hmem, h⟩ | ⟨⟨h, -⟩, -⟩)
        · exact .inr ⟨hfresh, rfl⟩
        · exact absurd ⟨rec', hmem, h⟩ hnone
        · exact absurd hrec h
    · rw [if_neg hrec]
      constructor
      · rintro (⟨rec', hmem, h⟩ | ⟨h, hp⟩)
        · exact .inl ⟨rec', .inr hmem, h⟩
        · exact .inr ⟨⟨hrec, h⟩, hp⟩
      · rintro (⟨rec', ⟨rfl, rfl⟩ | hmem, h⟩ | ⟨⟨-, h⟩, hp⟩)
        · exact absurd h hrec
        · exact .inl ⟨rec', hmem, h⟩
        · exact .inr ⟨h, hp⟩

lemma foldl_create_other (hsha : CollisionFree env) {rows : List (RecordId .agEvent × EventRow)}
    {c g : String × String} (hkeys : ∀ x ∈ rows, eventKey env c x.2.eventId = .ok x.1)
    (hne : g ≠ c) (p : Ledger) :
    (rows.map fun row => Write.event row.1.key (some row.2)).foldl (Ledger.write env g) p = p := by
  induction rows generalizing p with
  | nil => rfl
  | cons x rows ih =>
    rw [List.map_cons, List.foldl_cons, write_event_other hsha (hkeys x (by simp)) hne]
    exact ih (fun y hy => hkeys y (by simp [hy])) p

/-- The rows of the child with their keys. -/
structure ChildRows (env : Env F X) (c : String × String) (L : List (LogEvent F))
    (rows : List (RecordId .agEvent × EventRow)) : Prop where
  contents : rows.map Prod.snd = chainRows env c.1 c.2 L
  keys : ∀ x ∈ rows, eventKey env c x.2.eventId = .ok x.1

lemma ChildRows.nodup {c : String × String} {L : List (LogEvent F)}
    {rows : List (RecordId .agEvent × EventRow)} (h : ChildRows env c L rows)
    (hsha : CollisionFree env) (hids : (L.map (·.id)).Nodup) : (rows.map Prod.fst).Nodup := by
  have hnodup : (rows.map fun x => x.2.eventId).Nodup := by
    have hmap : rows.map (fun x => x.2.eventId) = (rows.map Prod.snd).map (·.eventId) := by
      rw [List.map_map]
      rfl
    rw [hmap, h.contents, eventIds_chainRows]
    exact hids
  refine (List.Nodup.of_map _ hnodup).map_on fun x hx y hy heq => ?_
  have hkey : eventKey env c y.2.eventId = .ok x.1 := by
    rw [heq]
    exact h.keys y hy
  have hid := (eventKey_inj hsha (h.keys x hx) hkey).2
  exact List.inj_on_of_nodup_map hnodup hx hy hid

lemma fork_proper {g c : String × String} {pk ck : RecordId .agRun} {parent child : RunRow}
    {rows : List (RecordId .agEvent × EventRow)} {L M : List (LogEvent F)}
    (hpk : runKey env g = .ok pk) (hck : runKey env c = .ok ck)
    (hparent : Ledger.HeadOf env g L parent) (hchild : Ledger.HeadOf env c M child)
    (hrows : ChildRows env c M rows) : ∀ w ∈ forkWrites pk parent ck child rows, w.Proper env := by
  intro w hw
  rw [forkWrites, List.mem_append, List.mem_map] at hw
  rcases hw with hw | ⟨x, hx, rfl⟩
  · simp only [List.mem_cons, List.not_mem_nil, or_false] at hw
    rcases hw with rfl | rfl
    · exact ⟨_, rfl, by simpa [hparent.scope, hparent.runId] using hpk⟩
    · exact ⟨_, rfl, by simpa [hchild.scope, hchild.runId] using hck⟩
  · intro r hr
    obtain rfl : x.2 = r := Option.some.inj hr
    have hmem : x.2 ∈ chainRows env c.1 c.2 M := hrows.contents ▸ List.mem_map_of_mem hx
    obtain ⟨hs, hr⟩ := mem_chainRows_scope hmem
    rw [hs, hr]
    exact hrows.keys x hx

variable (sdk) in
theorem fork_move (hsha : CollisionFree env) {t : Tables} {g c : String × String}
    {pk ck : RecordId .agRun} {parent child : RunRow}
    {rows : List (RecordId .agEvent × EventRow)} {M : List (LogEvent F)}
    (hpk : runKey env g = .ok pk) (hck : runKey env c = .ok ck)
    (hparent : (t.ledger env g).run = some parent) (habs : (t.ledger env c).Absent)
    (hchild : Ledger.HeadOf env c M child) (hids : (M.map (·.id)).Nodup)
    (hrows : ChildRows env c M rows) :
    Move env t ((engine sdk).applyAll (forkWrites pk parent ck child rows) t) c M := by
  have hne : g ≠ c := by
    rintro rfl
    rw [habs.1] at hparent
    cases hparent
  have hsame : ∀ g', (t.ledger env g').write env g' (.run pk.key (some parent)) =
      t.ledger env g' := by
    intro g'
    by_cases hg : g' = g
    · subst hg
      rw [write_run_here hsha hpk, ← hparent]
    · rw [write_run_other hsha hpk hg]
  constructor
  · rw [ledger_applyAll, forkWrites, List.foldl_append, List.foldl_cons, List.foldl_cons,
      List.foldl_nil, hsame, write_run_here hsha hck]
    obtain ⟨hrun, hevent⟩ := foldl_create env rows c
      { t.ledger env c with run := some child } (hrows.nodup hsha hids)
    refine ⟨⟨child, hrun, hchild⟩, fun id row => ?_, hids⟩
    rw [hevent]
    constructor
    · rintro (⟨rec, hmem, hrec⟩ | ⟨-, h⟩)
      · have hrow : row ∈ chainRows env c.1 c.2 M := hrows.contents ▸ List.mem_map_of_mem hmem
        exact ⟨hrow, (eventKey_inj hsha (hrows.keys _ hmem) hrec).2⟩
      · rw [show (({ t.ledger env c with run := some child } : Ledger)).event id = none from
          habs.2 id] at h
        cases h
    · rintro ⟨hmem, rfl⟩
      rw [← hrows.contents, List.mem_map] at hmem
      obtain ⟨x, hx, rfl⟩ := hmem
      exact .inl ⟨x.1, hx, hrows.keys x hx⟩
  · intro g' hg'
    rw [ledger_applyAll, forkWrites, List.foldl_append, List.foldl_cons, List.foldl_cons,
      List.foldl_nil, hsame, write_run_other hsha hck hg']
    exact foldl_create_other hsha hrows.keys hg' _

end ActiveGraphSurreal
