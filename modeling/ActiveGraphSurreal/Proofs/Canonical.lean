import ActiveGraphSurreal.EventStore
import ActiveGraphSurreal.Library.HashChain

/-!
# Events in canonical form

A `LogEvent` is an event whose payload is JSON in canonical form. Its record and its link
in the hash chain are functions of it. What an event becomes when it is appended, and what
a stored row decodes to, are both log events.
-/

namespace ActiveGraphSurreal

open Library

set_option linter.unusedSectionVars false

variable {F X : Type} [Json.ScalarText F] (env : Env F X)

/-! ### What is assumed of the encoder and the digest -/

def CollisionFree : Prop := Function.Injective env.sha256

/-- The JSON value that the encoder makes of a value. -/
def adapt (value : PyValue F X) : Except PyErr (Json F) := do
  loads env (← env.encodePayload value)

/-- A value that is JSON already is encoded as a text of the same value. -/
def EncodesJson : Prop :=
  ∀ j : Json F, j.Distinct → ∃ j', adapt env (plain j) = .ok j' ∧ j'.canon = j.canon

/-- A dictionary is encoded entry by entry. -/
def EncodesDict : Prop :=
  ∀ (members : List (String × PyValue F X)) (adapted : List (Json F)),
    (members.map Prod.fst).Nodup →
    List.Forall₂ (fun m j => adapt env m.2 = .ok j) members adapted →
    ∃ j', adapt env (.obj members) = .ok j' ∧
      j'.canon = (Json.obj ((members.map Prod.fst).zip adapted)).canon

variable {env}

lemma canonicalJson_eq (value : PyValue F X) :
    canonicalJson env value = (adapt env value).map dumps := by
  unfold canonicalJson adapt
  cases env.encodePayload value with
  | error e => rfl
  | ok text => rfl

lemma dumps_congr {i j : Json F} (h : i.canon = j.canon) : dumps i = dumps j := by
  unfold dumps
  rw [h]

lemma dumps_inj {i j : Json F} (hi : i.Distinct) (hj : j.Distinct) (h : dumps i = dumps j) :
    i.canon = j.canon := by
  unfold dumps at h
  exact Json.render_injective ((Json.distinct_canon i).mpr hi) ((Json.distinct_canon j).mpr hj)
    (String.ofList_injective h)

lemma loads_dumps {j : Json F} (hj : j.Distinct) : loads env (dumps j) = .ok j.canon := by
  unfold loads dumps
  rw [String.toList_ofList, Json.parse_render ((Json.distinct_canon j).mpr hj)]

lemma loads_distinct {text : String} {j : Json F} (h : loads env text = .ok j) : j.Distinct := by
  unfold loads at h
  split at h
  · next hp =>
    obtain rfl := Except.ok.inj h
    exact Json.distinct_parse hp
  · cases h

/-! ### Log events -/

@[ext]
structure LogEvent (F : Type) where
  id : String
  type : String
  payload : Json F
  actor : Option String
  frameId : Option String
  causedBy : Option String
  timestamp : String
  canonical : payload.canon = payload
  distinct : payload.Distinct

def LogEvent.toEvent (e : LogEvent F) : Event F X :=
  ⟨e.id, e.type, plain e.payload, e.actor, e.frameId, e.causedBy, e.timestamp⟩

def LogEvent.record (e : LogEvent F) : EventRecord :=
  ⟨e.id, e.type, dumps e.payload, e.actor, e.frameId, e.causedBy, e.timestamp⟩

def LogEvent.optional : Option String → Json F
  | none => .null
  | some s => .str s

def LogEvent.preimage (scope runId : String) (seq : Nat) (previousHash : Option String) (e : LogEvent F) :
    List (String × Json F) := [
  ("scope", .str scope),
  ("run_id", .str runId),
  ("seq", .int seq),
  ("id", .str e.id),
  ("type", .str e.type),
  ("payload", e.payload),
  ("actor", optional e.actor),
  ("frame_id", optional e.frameId),
  ("caused_by", optional e.causedBy),
  ("timestamp", .str e.timestamp),
  ("previous_hash", optional previousHash)]

variable (env) in
/-- The hash of an event at a position of the chain of a run. -/
def LogEvent.link (scope runId : String) (seq : Nat) (previousHash : Option String) (e : LogEvent F) :
    String :=
  env.sha256 (utf8 (dumps (.obj (e.preimage scope runId seq previousHash))))

lemma optional_inj {a b : Option String} (h : (LogEvent.optional a : Json F) = LogEvent.optional b) : a = b := by
  cases a <;> cases b <;> simp_all [LogEvent.optional]

lemma canon_optional (a : Option String) : (LogEvent.optional a : Json F).canon = LogEvent.optional a := by
  cases a <;> rfl

lemma distinct_optional (a : Option String) : (LogEvent.optional a : Json F).Distinct := by
  cases a <;> trivial

lemma preimage_keys (scope runId : String) (seq : Nat) (h : Option String) (e : LogEvent F) :
    (e.preimage scope runId seq h).map Prod.fst = ["scope", "run_id", "seq", "id", "type",
      "payload", "actor", "frame_id", "caused_by", "timestamp", "previous_hash"] := rfl

lemma preimage_nodup (scope runId : String) (seq : Nat) (h : Option String) (e : LogEvent F) :
    ((e.preimage scope runId seq h).map Prod.fst).Nodup := by
  rw [preimage_keys]
  decide

lemma distinct_preimage (scope runId : String) (seq : Nat) (h : Option String) (e : LogEvent F) :
    (Json.obj (e.preimage scope runId seq h)).Distinct := by
  rw [Json.distinct_obj]
  refine ⟨preimage_nodup .., ?_⟩
  simp [LogEvent.preimage, distinct_optional, e.distinct, Json.Distinct]

/-- Every member of the preimage is canonical, so they can be read off its canonical form. -/
lemma canon_preimage (scope runId : String) (seq : Nat) (h : Option String) (e : LogEvent F) :
    (e.preimage scope runId seq h).map (Prod.map id Json.canon) = e.preimage scope runId seq h := by
  simp [LogEvent.preimage, canon_optional, e.canonical, Json.canon]

/-- The hashed text determines the position and every field of the event. -/
theorem preimage_inj {s s' r r' : String} {n n' : Nat} {h h' : Option String} {e e' : LogEvent F}
    (heq : dumps (.obj (e.preimage s r n h)) = dumps (.obj (e'.preimage s' r' n' h'))) :
    s = s' ∧ r = r' ∧ n = n' ∧ h = h' ∧ e = e' := by
  have hcanon := dumps_inj (distinct_preimage ..) (distinct_preimage ..) heq
  have hkeys : (e.preimage s r n h).map Prod.fst = (e'.preimage s' r' n' h').map Prod.fst := rfl
  have hmembers := Json.canon_obj_inj hkeys (preimage_nodup ..) hcanon
  rw [canon_preimage, canon_preimage] at hmembers
  simp only [LogEvent.preimage, List.cons.injEq, Prod.mk.injEq, Json.str.injEq, Json.int.injEq, true_and,
    and_true] at hmembers
  obtain ⟨hs, hr, hn, hid, htype, hpayload, hactor, hframe, hcaused, htime, hprev⟩ := hmembers
  refine ⟨hs, hr, Int.ofNat.inj hn, optional_inj hprev, ?_⟩
  exact LogEvent.ext hid htype hpayload (optional_inj hactor) (optional_inj hframe)
    (optional_inj hcaused) htime

theorem link_injective (hsha : CollisionFree env) (scope runId : String) :
    LinkInjective (LogEvent.link env scope runId) fun _ => True := by
  intro n p x m q y _ _ h
  obtain ⟨-, -, hn, hp, he⟩ := preimage_inj (utf8_inj (hsha h))
  exact ⟨hn, hp, he⟩

/-! ### The code on log events -/

lemma recordToEvent_record (e : LogEvent F) :
    recordToEvent env e.record = .ok (e.toEvent : Event F X) := by
  unfold recordToEvent LogEvent.record
  rw [loads_dumps e.distinct, e.canonical]
  rfl

/-! ### What the code makes of an event -/

/-- The event is stored as the log event: its payload is adapted to the same JSON value. -/
structure Normal (env : Env F X) (event : Event F X) (e : LogEvent F) : Prop where
  id : event.id = e.id
  type : event.type = e.type
  actor : event.actor = e.actor
  frameId : event.frameId = e.frameId
  causedBy : event.causedBy = e.causedBy
  timestamp : event.timestamp = e.timestamp
  payload : ∃ j, adapt env event.payload = .ok j ∧ j.canon = e.payload

lemma normal_toEvent (henc : EncodesJson env) (e : LogEvent F) : Normal env e.toEvent e := by
  obtain ⟨j, hadapt, hcanon⟩ := henc e.payload e.distinct
  exact ⟨rfl, rfl, rfl, rfl, rfl, rfl, j, hadapt, hcanon.trans e.canonical⟩

/-- The log event with the fields of an event and a payload of its own. -/
def withPayload (event : Event F X) (j : Json F) (h : j.Distinct) : LogEvent F where
  id := event.id
  type := event.type
  payload := j.canon
  actor := event.actor
  frameId := event.frameId
  causedBy := event.causedBy
  timestamp := event.timestamp
  canonical := Json.canon_canon j
  distinct := (Json.distinct_canon j).mpr h

lemma adapt_distinct {value : PyValue F X} {j : Json F} (h : adapt env value = .ok j) :
    j.Distinct := by
  obtain ⟨text, -, h⟩ := bind_eq_ok.mp h
  exact loads_distinct h

lemma normal_withPayload {event : Event F X} {j : Json F} (h : adapt env event.payload = .ok j) :
    Normal env event (withPayload event j (adapt_distinct h)) :=
  ⟨rfl, rfl, rfl, rfl, rfl, rfl, j, h, rfl⟩

lemma normal_plain (henc : EncodesJson env) {event : Event F X} {j : Json F} (h : j.Distinct)
    (hpayload : event.payload = plain j) : Normal env event (withPayload event j h) := by
  obtain ⟨j', hadapt, hcanon⟩ := henc j h
  rw [← hpayload] at hadapt
  exact ⟨rfl, rfl, rfl, rfl, rfl, rfl, j', hadapt, hcanon⟩

lemma Normal.unique {event : Event F X} {e e' : LogEvent F} (h : Normal env event e)
    (h' : Normal env event e') : e = e' := by
  obtain ⟨j, hj, hpayload⟩ := h.payload
  obtain ⟨j', hj', hpayload'⟩ := h'.payload
  obtain rfl : j = j' := Except.ok.inj (hj.symm.trans hj')
  exact LogEvent.ext (h.id.symm.trans h'.id) (h.type.symm.trans h'.type)
    (hpayload.symm.trans hpayload') (h.actor.symm.trans h'.actor)
    (h.frameId.symm.trans h'.frameId) (h.causedBy.symm.trans h'.causedBy)
    (h.timestamp.symm.trans h'.timestamp)

theorem eventToRecord_ok_iff {event : Event F X} {record : EventRecord} :
    eventToRecord env event = .ok record ↔ ∃ e, Normal env event e ∧ record = e.record := by
  unfold eventToRecord
  rw [canonicalJson_eq]
  constructor
  · intro h
    obtain ⟨text, htext, h⟩ := bind_eq_ok.mp h
    obtain rfl := pure_eq_ok.mp h
    cases hadapt : adapt env event.payload with
    | error e => simp [hadapt, Except.map] at htext
    | ok j =>
      refine ⟨_, normal_withPayload hadapt, ?_⟩
      obtain rfl : dumps j = text := by simpa [hadapt, Except.map] using htext
      rw [LogEvent.record, withPayload, dumps_congr (Json.canon_canon j)]
  · rintro ⟨e, h, rfl⟩
    obtain ⟨j, hadapt, hcanon⟩ := h.payload
    have hdumps : dumps j = dumps e.payload := dumps_congr (by rw [hcanon, e.canonical])
    rw [hadapt, LogEvent.record, ← h.id, ← h.type, ← h.actor, ← h.frameId, ← h.causedBy,
      ← h.timestamp, ← hdumps]
    rfl

/-! ### The hash of an event -/

/-- A dictionary of adapted entries, told up to the order of keys. -/
lemma adapt_obj (hdict : EncodesDict env) {members : List (String × PyValue F X)}
    {values : List (String × Json F)} (hnodup : (members.map Prod.fst).Nodup)
    (h : List.Forall₂ (fun m v => m.1 = v.1 ∧ ∃ j, adapt env m.2 = .ok j ∧ j.canon = v.2.canon)
      members values) :
    ∃ j, adapt env (.obj members) = .ok j ∧ j.canon = (Json.obj values).canon := by
  have hadapted : ∃ adapted : List (Json F),
      List.Forall₂ (fun m j => adapt env m.2 = .ok j) members adapted ∧
      ((members.map Prod.fst).zip adapted).map (Prod.map id Json.canon) =
        values.map (Prod.map id Json.canon) := by
    clear hnodup
    induction h with
    | nil => exact ⟨[], .nil, rfl⟩
    | @cons m v ms vs hmv _ ih =>
      obtain ⟨hkey, j, hj, hcanon⟩ := hmv
      obtain ⟨adapted, hall, hzip⟩ := ih
      refine ⟨j :: adapted, .cons hj hall, ?_⟩
      rw [List.map_cons, List.zip_cons_cons, List.map_cons, hzip, List.map_cons]
      congr 1
      exact Prod.ext hkey hcanon
  obtain ⟨adapted, hall, hzip⟩ := hadapted
  obtain ⟨j, hj, hcanon⟩ := hdict members adapted hnodup hall
  exact ⟨j, hj, hcanon.trans (Json.canon_obj_congr hzip)⟩

lemma eventHash_of_adapt {event : Event F X} {e : LogEvent F} {s r : String} {n : Nat}
    {h : Option String} (hadapt : ∃ j, adapt env (preimage s r n event h) = .ok j ∧
      j.canon = (Json.obj (e.preimage s r n h)).canon) :
    eventHash env s r n event h = .ok (e.link env s r n h) := by
  obtain ⟨j, hj, hcanon⟩ := hadapt
  unfold eventHash LogEvent.link
  rw [canonicalJson_eq, hj, ← dumps_congr hcanon]
  rfl

/-- The dictionary under the hash of an event, once its payload is encoded. -/
def hashedMembers (scope runId : String) (seq : Int) (event : Event F X) (payload : Json F)
    (previousHash : Option String) : List (String × Json F) := [
  ("scope", .str scope),
  ("run_id", .str runId),
  ("seq", .int seq),
  ("id", .str event.id),
  ("type", .str event.type),
  ("payload", payload),
  ("actor", LogEvent.optional event.actor),
  ("frame_id", LogEvent.optional event.frameId),
  ("caused_by", LogEvent.optional event.causedBy),
  ("timestamp", .str event.timestamp),
  ("previous_hash", LogEvent.optional previousHash)]

lemma hashedMembers_keys (s r : String) (n : Int) (event : Event F X) (j : Json F)
    (h : Option String) : (hashedMembers s r n event j h).map Prod.fst = ["scope", "run_id", "seq",
      "id", "type", "payload", "actor", "frame_id", "caused_by", "timestamp", "previous_hash"] := rfl

lemma hashedMembers_nodup (s r : String) (n : Int) (event : Event F X) (j : Json F)
    (h : Option String) : ((hashedMembers s r n event j h).map Prod.fst).Nodup := by
  rw [hashedMembers_keys]
  decide

lemma distinct_hashedMembers {j : Json F} (hj : j.Distinct) (s r : String) (n : Int)
    (event : Event F X) (h : Option String) : (Json.obj (hashedMembers s r n event j h)).Distinct := by
  rw [Json.distinct_obj]
  refine ⟨hashedMembers_nodup .., ?_⟩
  simp [hashedMembers, distinct_optional, hj, Json.Distinct]

lemma canon_hashedMembers (s r : String) (n : Int) (event : Event F X) (j : Json F)
    (h : Option String) : (hashedMembers s r n event j h).map (Prod.map id Json.canon) =
      hashedMembers s r n event j.canon h := by
  simp [hashedMembers, canon_optional, Json.canon]

lemma adapt_preimage (henc : EncodesJson env) (hdict : EncodesDict env) {event : Event F X}
    {j : Json F} (hj : adapt env event.payload = .ok j) (s r : String) (n : Int)
    (h : Option String) : ∃ k, adapt env (preimage s r n event h) = .ok k ∧
      k.canon = (Json.obj (hashedMembers s r n event j h)).canon := by
  have hplain (k : Json F) (hk : k.Distinct) :
      ∃ j, adapt env (plain k) = .ok j ∧ j.canon = k.canon := henc k hk
  have hopt (a : Option String) : ∃ j, adapt env (optionalText a) = .ok j ∧
      j.canon = (LogEvent.optional a).canon := by
    cases a with
    | none => exact hplain .null trivial
    | some s => exact hplain (.str s) trivial
  refine adapt_obj hdict (hashedMembers_nodup s r n event j h) ?_
  unfold hashedMembers
  repeat' apply List.Forall₂.cons
  · exact ⟨rfl, hplain (.str s) trivial⟩
  · exact ⟨rfl, hplain (.str r) trivial⟩
  · exact ⟨rfl, hplain (.int n) trivial⟩
  · exact ⟨rfl, hplain (.str event.id) trivial⟩
  · exact ⟨rfl, hplain (.str event.type) trivial⟩
  · exact ⟨rfl, j, hj, rfl⟩
  · exact ⟨rfl, hopt _⟩
  · exact ⟨rfl, hopt _⟩
  · exact ⟨rfl, hopt _⟩
  · exact ⟨rfl, hplain (.str event.timestamp) trivial⟩
  · exact ⟨rfl, hopt _⟩
  · exact .nil

/-- Hashing the event in memory is hashing what is stored of it. -/
theorem eventHash_normal (henc : EncodesJson env) (hdict : EncodesDict env) {event : Event F X}
    {e : LogEvent F} (hnormal : Normal env event e) (s r : String) (n : Nat) (h : Option String) :
    eventHash env s r n event h = .ok (e.link env s r n h) := by
  obtain ⟨hid, htype, hactor, hframe, hcaused, htime, j, hj, hcanon⟩ := hnormal
  obtain ⟨k, hadapt, hk⟩ := adapt_preimage henc hdict hj s r n h
  refine eventHash_of_adapt ⟨k, hadapt, hk.trans (Json.canon_obj_congr ?_)⟩
  rw [canon_hashedMembers, canon_preimage, hcanon]
  unfold hashedMembers LogEvent.preimage
  rw [hid, htype, hactor, hframe, hcaused, htime]

/-- An event with a payload that is JSON hashes as its log event, whatever the order of the
keys. -/
theorem eventHash_plain (henc : EncodesJson env) {event : Event F X} {j : Json F}
    (hj : j.Distinct) (hpayload : event.payload = plain j) (s r : String) (n : Nat)
    (h : Option String) :
    eventHash env s r n event h = .ok ((withPayload event j hj).link env s r n h) := by
  have hopt (a : Option String) : (optionalText a : PyValue F X) = plain (LogEvent.optional a) := by
    cases a <;> rfl
  have hpre : preimage s r n event h = plain (.obj (hashedMembers s r n event j h)) := by
    unfold preimage plain
    rw [hpayload]
    simp only [hashedMembers, Json.map, Json.mapMembers, hopt, plain]
  obtain ⟨j', hadapt, hcanon⟩ := henc _ (distinct_hashedMembers hj s r n event h)
  refine eventHash_of_adapt ⟨j', hpre ▸ hadapt, hcanon.trans (Json.canon_obj_congr ?_)⟩
  rw [canon_hashedMembers, canon_preimage]
  rfl

lemma eventHash_toEvent (henc : EncodesJson env) (s r : String) (n : Nat) (h : Option String)
    (e : LogEvent F) :
    eventHash env s r n (e.toEvent : Event F X) h = .ok (e.link env s r n h) := by
  rw [eventHash_plain henc e.distinct rfl]
  congr 2
  exact LogEvent.ext rfl rfl e.canonical rfl rfl rfl rfl

end ActiveGraphSurreal
