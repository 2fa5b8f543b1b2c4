import ActiveGraphSurreal.Proofs.Reference

/-!
# Records, hashed texts and keys

A record holds the data fields of an entity as canonical texts. Decoding it gives the entity
back with every data field in JSON-normal form, and such an entity has the same record again.
The text under the hash of an event and the bytes under a record key tell what they are made of.
-/

namespace ActiveGraphSurreal

open Library

set_option linter.unusedSectionVars false

variable {F X : Type} [Json.ScalarText F] (env : Env F X)

/-! ### What is assumed of the encoder -/

/-- What the encoder returns is a JSON text. -/
def EncodesText : Prop :=
  ∀ (value : PyValue F X) (text : String), env.encodePayload value = .ok text →
    ∃ j : Json F, loads env text = .ok j

/-- A list is encoded as a JSON array. -/
def EncodesList : Prop :=
  ∀ (items : List (PyValue F X)) (j : Json F), adapt env (.arr items) = .ok j →
    ∃ js, j = .arr js

/-! ### Data fields -/

def Accepted (value : PyValue F X) : Prop := ∃ text, env.encodePayload value = .ok text

/-- The value that is stored of another one: its JSON-normal form. -/
def NormalForm (value value' : PyValue F X) : Prop :=
  ∃ j : Json F, adapt env value = .ok j ∧ value' = plain j.canon

/-- Plain JSON with string keys, each key once. -/
def IsJson (value : PyValue F X) : Prop := ∃ j : Json F, j.Distinct ∧ value = plain j

variable {env}

lemma Accepted.normalForm (htext : EncodesText env) {value : PyValue F X}
    (h : Accepted env value) : ∃ value', NormalForm env value value' := by
  obtain ⟨text, hencode⟩ := h
  obtain ⟨j, hload⟩ := htext value text hencode
  refine ⟨plain j.canon, j, ?_, rfl⟩
  unfold adapt
  rw [hencode]
  exact hload

/-- A field is written as a text, is read from it in normal form, and then has that text. -/
lemma field_text (henc : EncodesJson env) {value : PyValue F X} {j : Json F}
    (hadapt : adapt env value = .ok j) :
    canonicalJson env value = .ok (dumps j) ∧ loads env (dumps j) = .ok j.canon ∧
      canonicalJson env (plain j.canon) = .ok (dumps j) := by
  have hdistinct : j.Distinct := adapt_distinct hadapt
  obtain ⟨k, hagain, hcanon⟩ := henc j.canon ((Json.distinct_canon j).mpr hdistinct)
  have hsame : dumps k = dumps j := dumps_congr (hcanon.trans (Json.canon_canon j))
  refine ⟨?_, loads_dumps hdistinct, ?_⟩
  · rw [canonicalJson_eq, hadapt]
    rfl
  · rw [canonicalJson_eq, hagain, ← hsame]
    rfl

lemma plain_arr (items : List (Json F)) :
    (plain (.arr items) : PyValue F X) = .arr (items.map plain) := by
  unfold plain
  rw [Json.map, Json.mapItems_eq]

/-- A list field is read as a list again. -/
lemma list_text (henc : EncodesJson env) (hlist : EncodesList env) {items : List (PyValue F X)}
    {j : Json F} (hadapt : adapt env (.arr items) = .ok j) :
    ∃ js : List (Json F), loads env (dumps j) = .ok (.arr js) ∧
      plain j.canon = .arr (js.map (plain : Json F → PyValue F X)) ∧
      canonicalJson env (.arr (js.map plain)) = .ok (dumps j) := by
  obtain ⟨js, rfl⟩ := hlist items j hadapt
  obtain ⟨-, hload, hagain⟩ := field_text henc hadapt
  rw [Json.canon_arr] at hload hagain
  rw [plain_arr] at hagain
  exact ⟨js.map Json.canon, hload, by rw [Json.canon_arr, plain_arr], hagain⟩

/-- The normal form of plain JSON is the same JSON with its keys in order. -/
lemma NormalForm.sorted (henc : EncodesJson env) {value value' : PyValue F X}
    (h : NormalForm env value value') (hjson : IsJson value) : value' = value.canon := by
  obtain ⟨j, hadapt, rfl⟩ := h
  obtain ⟨i, hdistinct, rfl⟩ := hjson
  obtain ⟨k, hagain, hcanon⟩ := henc i hdistinct
  obtain rfl : k = j := Except.ok.inj (hagain.symm.trans hadapt)
  rw [hcanon]
  unfold plain
  rw [Json.canon_map]

/-! ### Entities in normal form -/

variable (env) in
structure Event.NormalForm (event event' : Event F X) : Prop where
  payload : ActiveGraphSurreal.NormalForm env event.payload event'.payload
  others : event' = { event with payload := event'.payload }

variable (env) in
structure Object.NormalForm (obj obj' : Object F X) : Prop where
  data : ActiveGraphSurreal.NormalForm env obj.data obj'.data
  provenance : ActiveGraphSurreal.NormalForm env obj.provenance obj'.provenance
  others : obj' = { obj with data := obj'.data, provenance := obj'.provenance }

variable (env) in
structure Relation.NormalForm (rel rel' : Relation F X) : Prop where
  data : ActiveGraphSurreal.NormalForm env rel.data rel'.data
  provenance : ActiveGraphSurreal.NormalForm env rel.provenance rel'.provenance
  others : rel' = { rel with data := rel'.data, provenance := rel'.provenance }

variable (env) in
structure Patch.NormalForm (patch patch' : Patch F X) : Prop where
  value : ActiveGraphSurreal.NormalForm env patch.value patch'.value
  evidence : ActiveGraphSurreal.NormalForm env (.arr patch.evidence) (.arr patch'.evidence)
  provenance : ActiveGraphSurreal.NormalForm env patch.provenance patch'.provenance
  others : patch' = { patch with
    value := patch'.value
    evidence := patch'.evidence
    provenance := patch'.provenance }

/-! Equal dictionaries may have their keys in different orders. -/

def Event.sorted (event : Event F X) : Event F X := { event with payload := event.payload.canon }

def Object.sorted (obj : Object F X) : Object F X :=
  { obj with data := obj.data.canon, provenance := obj.provenance.canon }

def Relation.sorted (rel : Relation F X) : Relation F X :=
  { rel with data := rel.data.canon, provenance := rel.provenance.canon }

def Patch.sorted (patch : Patch F X) : Patch F X := { patch with
  value := patch.value.canon
  evidence := patch.evidence.map Json.canon
  provenance := patch.provenance.canon }

/-! ### Round trips -/

theorem event_round_trip (henc : EncodesJson env) (htext : EncodesText env) (event : Event F X)
    (hpayload : Accepted env event.payload) :
    ∃ record event', eventToRecord env event = .ok record ∧
      recordToEvent env record = .ok event' ∧ event.NormalForm env event' ∧
      eventToRecord env event' = .ok record ∧
      (IsJson event.payload → event' = event.sorted) := by
  obtain ⟨payload, hnormal⟩ := hpayload.normalForm htext
  obtain ⟨j, hadapt, rfl⟩ := id hnormal
  obtain ⟨hwrite, hread, hagain⟩ := field_text henc hadapt
  let record : EventRecord := ⟨event.id, event.type, dumps j, event.actor, event.frameId,
    event.causedBy, event.timestamp⟩
  refine ⟨record, { event with payload := plain j.canon }, ?_, ?_, ⟨hnormal, rfl⟩, ?_, ?_⟩
  · unfold eventToRecord
    rw [hwrite]
    rfl
  · unfold recordToEvent
    simp only [record, hread]
    rfl
  · unfold eventToRecord
    rw [hagain]
    rfl
  · intro hjson
    unfold Event.sorted
    rw [hnormal.sorted henc hjson]

theorem object_round_trip (henc : EncodesJson env) (htext : EncodesText env) (obj : Object F X)
    (hdata : Accepted env obj.data) (hprovenance : Accepted env obj.provenance) :
    ∃ record obj', objectToRecord env obj = .ok record ∧
      objectFromRecord env record = .ok obj' ∧ obj.NormalForm env obj' ∧
      objectToRecord env obj' = .ok record ∧
      (IsJson obj.data → IsJson obj.provenance → obj' = obj.sorted) := by
  obtain ⟨data, hdata⟩ := hdata.normalForm htext
  obtain ⟨provenance, hprovenance⟩ := hprovenance.normalForm htext
  obtain ⟨j, hadapt, rfl⟩ := id hdata
  obtain ⟨k, hadapt', rfl⟩ := id hprovenance
  obtain ⟨hwrite, hread, hagain⟩ := field_text henc hadapt
  obtain ⟨hwrite', hread', hagain'⟩ := field_text henc hadapt'
  let record : ObjectRecord := ⟨obj.id, obj.type, dumps j, obj.version, dumps k⟩
  refine ⟨record, { obj with data := plain j.canon, provenance := plain k.canon }, ?_, ?_,
    ⟨hdata, hprovenance, rfl⟩, ?_, ?_⟩
  · unfold objectToRecord
    rw [hwrite, hwrite']
    rfl
  · unfold objectFromRecord
    simp only [record, hread, hread']
    rfl
  · unfold objectToRecord
    rw [hagain, hagain']
    rfl
  · intro hjson hjson'
    unfold Object.sorted
    rw [hdata.sorted henc hjson, hprovenance.sorted henc hjson']

theorem relation_round_trip (henc : EncodesJson env) (htext : EncodesText env)
    (rel : Relation F X) (hdata : Accepted env rel.data)
    (hprovenance : Accepted env rel.provenance) :
    ∃ record rel', relationToRecord env rel = .ok record ∧
      recordToRelation env record = .ok rel' ∧ rel.NormalForm env rel' ∧
      relationToRecord env rel' = .ok record ∧
      (IsJson rel.data → IsJson rel.provenance → rel' = rel.sorted) := by
  obtain ⟨data, hdata⟩ := hdata.normalForm htext
  obtain ⟨provenance, hprovenance⟩ := hprovenance.normalForm htext
  obtain ⟨j, hadapt, rfl⟩ := id hdata
  obtain ⟨k, hadapt', rfl⟩ := id hprovenance
  obtain ⟨hwrite, hread, hagain⟩ := field_text henc hadapt
  obtain ⟨hwrite', hread', hagain'⟩ := field_text henc hadapt'
  let record : RelationRecord := ⟨rel.id, rel.source, rel.target, rel.type, dumps j, dumps k⟩
  refine ⟨record, { rel with data := plain j.canon, provenance := plain k.canon }, ?_, ?_,
    ⟨hdata, hprovenance, rfl⟩, ?_, ?_⟩
  · unfold relationToRecord
    rw [hwrite, hwrite']
    rfl
  · unfold recordToRelation
    simp only [record, hread, hread']
    rfl
  · unfold relationToRecord
    rw [hagain, hagain']
    rfl
  · intro hjson hjson'
    unfold Relation.sorted
    rw [hdata.sorted henc hjson, hprovenance.sorted henc hjson']

theorem patch_round_trip (henc : EncodesJson env) (htext : EncodesText env)
    (hlist : EncodesList env) (patch : Patch F X) (hvalue : Accepted env patch.value)
    (hevidence : Accepted env (.arr patch.evidence))
    (hprovenance : Accepted env patch.provenance) :
    ∃ record patch', patchToRecord env patch = .ok record ∧
      patchFromRecord env record = .ok patch' ∧ patch.NormalForm env patch' ∧
      patchToRecord env patch' = .ok record ∧
      (IsJson patch.value → IsJson (.arr patch.evidence) → IsJson patch.provenance →
        patch' = patch.sorted) := by
  obtain ⟨value, hvalue⟩ := hvalue.normalForm htext
  obtain ⟨evidence, hevidence⟩ := hevidence.normalForm htext
  obtain ⟨provenance, hprovenance⟩ := hprovenance.normalForm htext
  obtain ⟨i, hadapt, rfl⟩ := id hvalue
  obtain ⟨j, hadapt', rfl⟩ := id hevidence
  obtain ⟨k, hadapt'', rfl⟩ := id hprovenance
  obtain ⟨hwrite, hread, hagain⟩ := field_text henc hadapt
  obtain ⟨hwrite', -, -⟩ := field_text henc hadapt'
  obtain ⟨js, hread', hplain, hagain'⟩ := list_text henc hlist hadapt'
  obtain ⟨hwrite'', hread'', hagain''⟩ := field_text henc hadapt''
  rw [hplain] at hevidence
  let record : PatchRecord := ⟨patch.id, patch.target, patch.op, dumps i, patch.expectedVersion,
    patch.proposedBy, patch.rationale, dumps j, patch.status, patch.rejectionReason, dumps k⟩
  refine ⟨record, { patch with
      value := plain i.canon
      evidence := js.map plain
      provenance := plain k.canon }, ?_, ?_, ⟨hvalue, hevidence, hprovenance, rfl⟩, ?_, ?_⟩
  · unfold patchToRecord
    rw [hwrite, hwrite', hwrite'']
    rfl
  · unfold patchFromRecord
    simp only [record, hread, hread', hread'']
    rfl
  · unfold patchToRecord
    rw [hagain, hagain', hagain'']
    rfl
  · intro hjson hjson' hjson''
    have hitems := hevidence.sorted henc hjson'
    rw [Json.canon_arr] at hitems
    unfold Patch.sorted
    rw [hvalue.sorted henc hjson, Json.arr.inj hitems, hprovenance.sorted henc hjson'']

theorem records_round_trip (henc : EncodesJson env) (htext : EncodesText env)
    (hlist : EncodesList env) :
    (∀ event : Event F X, Accepted env event.payload →
      ∃ record event', eventToRecord env event = .ok record ∧
        recordToEvent env record = .ok event' ∧ event.NormalForm env event' ∧
        eventToRecord env event' = .ok record ∧
        (IsJson event.payload → event' = event.sorted)) ∧
    (∀ obj : Object F X, Accepted env obj.data → Accepted env obj.provenance →
      ∃ record obj', objectToRecord env obj = .ok record ∧
        objectFromRecord env record = .ok obj' ∧ obj.NormalForm env obj' ∧
        objectToRecord env obj' = .ok record ∧
        (IsJson obj.data → IsJson obj.provenance → obj' = obj.sorted)) ∧
    (∀ rel : Relation F X, Accepted env rel.data → Accepted env rel.provenance →
      ∃ record rel', relationToRecord env rel = .ok record ∧
        recordToRelation env record = .ok rel' ∧ rel.NormalForm env rel' ∧
        relationToRecord env rel' = .ok record ∧
        (IsJson rel.data → IsJson rel.provenance → rel' = rel.sorted)) ∧
    ∀ patch : Patch F X, Accepted env patch.value → Accepted env (.arr patch.evidence) →
      Accepted env patch.provenance →
      ∃ record patch', patchToRecord env patch = .ok record ∧
        patchFromRecord env record = .ok patch' ∧ patch.NormalForm env patch' ∧
        patchToRecord env patch' = .ok record ∧
        (IsJson patch.value → IsJson (.arr patch.evidence) → IsJson patch.provenance →
          patch' = patch.sorted) :=
  ⟨event_round_trip henc htext, object_round_trip henc htext, relation_round_trip henc htext,
    patch_round_trip henc htext hlist⟩

lemma reference_encodesText : EncodesText (reference F) := by
  intro value text h
  unfold reference at h
  simp only at h
  split at h
  · next hdistinct =>
    obtain rfl := Except.ok.inj h
    exact ⟨_, loads_dumps hdistinct⟩
  · cases h

lemma reference_encodesList : EncodesList (reference F) := by
  intro items j h
  obtain ⟨-, rfl⟩ := adapt_reference.mp h
  refine ⟨(items.map strip).map Json.canon, ?_⟩
  unfold strip
  rw [Json.map, Json.mapItems_eq, Json.canon_arr]

theorem records_round_trip_note :
    ∃ record event', eventToRecord (reference Unit) (referenceEvent "a") = .ok record ∧
      recordToEvent (reference Unit) record = .ok event' ∧
      (referenceEvent "a").NormalForm (reference Unit) event' ∧
      eventToRecord (reference Unit) event' = .ok record ∧
      (IsJson (referenceEvent "a").payload → event' = (referenceEvent "a").sorted) :=
  (records_round_trip reference_encodesJson reference_encodesText reference_encodesList).1
    (referenceEvent "a") ⟨_, rfl⟩

/-! ### The text under a hash -/

/-- The text that is hashed of an event at its place in the chain tells the place and the event,
up to the order of keys. -/
theorem hashed_text_eq_iff (henc : EncodesJson env) (hdict : EncodesDict env)
    (scope scope' runId runId' : String) (seq seq' : Int) {event event' : Event F X}
    (previousHash previousHash' : Option String) {j j' : Json F}
    (hj : adapt env event.payload = .ok j) (hj' : adapt env event'.payload = .ok j') :
    ∃ text text',
      canonicalJson env (preimage scope runId seq event previousHash) = .ok text ∧
      canonicalJson env (preimage scope' runId' seq' event' previousHash') = .ok text' ∧
      (text = text' ↔ scope = scope' ∧ runId = runId' ∧ seq = seq' ∧
        previousHash = previousHash' ∧ event.id = event'.id ∧ event.type = event'.type ∧
        event.actor = event'.actor ∧ event.frameId = event'.frameId ∧
        event.causedBy = event'.causedBy ∧ event.timestamp = event'.timestamp ∧
        j.canon = j'.canon) := by
  have hwrites (s r : String) (n : Int) (h : Option String) {e : Event F X} {i : Json F}
      (hi : adapt env e.payload = .ok i) : canonicalJson env (preimage s r n e h) =
        .ok (dumps (.obj (hashedMembers s r n e i h))) := by
    obtain ⟨k, hadapt, hcanon⟩ := adapt_preimage henc hdict hi s r n h
    rw [canonicalJson_eq, hadapt, ← dumps_congr hcanon]
    rfl
  refine ⟨_, _, hwrites _ _ _ _ hj, hwrites _ _ _ _ hj', ?_⟩
  constructor
  · intro heq
    have hcanon := dumps_inj (distinct_hashedMembers (adapt_distinct hj) ..)
      (distinct_hashedMembers (adapt_distinct hj') ..) heq
    have hkeys := (hashedMembers_keys scope runId seq event j previousHash).trans
      (hashedMembers_keys scope' runId' seq' event' j' previousHash').symm
    have hmembers := Json.canon_obj_inj hkeys (hashedMembers_nodup ..) hcanon
    rw [canon_hashedMembers, canon_hashedMembers] at hmembers
    simp only [hashedMembers, List.cons.injEq, Prod.mk.injEq, Json.str.injEq, Json.int.injEq,
      true_and, and_true] at hmembers
    obtain ⟨hs, hr, hn, hid, htype, hpayload, hactor, hframe, hcaused, htime, hprev⟩ := hmembers
    exact ⟨hs, hr, hn, optional_inj hprev, hid, htype, optional_inj hactor, optional_inj hframe,
      optional_inj hcaused, htime, hpayload⟩
  · rintro ⟨rfl, rfl, rfl, rfl, hid, htype, hactor, hframe, hcaused, htime, hpayload⟩
    apply dumps_congr
    apply Json.canon_obj_congr
    rw [canon_hashedMembers, canon_hashedMembers, hpayload]
    unfold hashedMembers
    rw [hid, htype, hactor, hframe, hcaused, htime]

theorem hashed_text_eq_iff_none :
    ∃ text text',
      canonicalJson (reference Unit) (preimage "s" "r" 0 (referenceEvent "a") none) = .ok text ∧
      canonicalJson (reference Unit) (preimage "s" "r" 0 (referenceEvent "a") (some "")) =
        .ok text' ∧ text ≠ text' := by
  have hadapt : adapt (reference Unit) (referenceEvent "a").payload =
      .ok (strip (referenceEvent "a").payload).canon := adapt_reference.mpr ⟨by decide, rfl⟩
  obtain ⟨text, text', h, h', hiff⟩ := hashed_text_eq_iff reference_encodesJson
    reference_encodesDict "s" "s" "r" "r" 0 0 none (some "") hadapt hadapt
  refine ⟨text, text', h, h', ?_⟩
  intro heq
  have hprevious : none = some "" := (hiff.mp heq).2.2.2.1
  cases hprevious

/-! ### The bytes under a key -/

lemma recordKeyBytes_of_short {parts : List String}
    (h : ∀ part ∈ parts, (utf8 part).length < 2 ^ 64) :
    ∃ bytes, recordKeyBytes parts = .ok bytes := by
  induction parts with
  | nil => exact ⟨[], rfl⟩
  | cons part parts ih =>
    obtain ⟨rest, hrest⟩ := ih fun p hp => h p (List.mem_cons_of_mem _ hp)
    have hlength : (utf8 part).length < 256 ^ 8 := h part List.mem_cons_self
    refine ⟨bigEndian 8 (utf8 part).length ++ utf8 part ++ rest, ?_⟩
    have hbytes : toBytes 8 (utf8 part).length = .ok (bigEndian 8 (utf8 part).length) :=
      if_pos hlength
    unfold recordKeyBytes
    simp only [hbytes, hrest]
    rfl

theorem record_keys_distinct :
    (∀ ps qs : List String, (∀ p ∈ ps, (utf8 p).length < 2 ^ 64) →
      (∀ q ∈ qs, (utf8 q).length < 2 ^ 64) →
      ∃ bytes bytes', recordKeyBytes ps = .ok bytes ∧ recordKeyBytes qs = .ok bytes' ∧
        (bytes = bytes' → ps = qs)) ∧
    ∀ (sha256 : List UInt8 → String), Function.Injective sha256 →
      ∀ (table table' : Table) (ps qs : List String) (r : RecordId table) (r' : RecordId table'),
        recordId sha256 table ps = .ok r → recordId sha256 table' qs = .ok r' →
        r.key = r'.key → table = table' ∧ ps = qs := by
  constructor
  · intro ps qs hps hqs
    obtain ⟨bytes, hbytes⟩ := recordKeyBytes_of_short hps
    obtain ⟨bytes', hbytes'⟩ := recordKeyBytes_of_short hqs
    refine ⟨bytes, bytes', hbytes, hbytes', ?_⟩
    rintro rfl
    exact recordKeyBytes_inj hbytes hbytes'
  · intro sha256 hsha table table' ps qs r r' hr hr' hkey
    obtain ⟨bytes, hbytes, hdigest⟩ := recordId_ok hr
    obtain ⟨bytes', hbytes', hdigest'⟩ := recordId_ok hr'
    obtain rfl : bytes = bytes' := hsha (hdigest.trans (hkey.trans hdigest'.symm))
    obtain ⟨hname, hparts⟩ := List.cons.inj (recordKeyBytes_inj hbytes hbytes')
    exact ⟨Table.name_injective hname, hparts⟩

theorem record_keys_distinct_shifted :
    ∃ bytes bytes', recordKeyBytes ["a", "bc"] = .ok bytes ∧
      recordKeyBytes ["ab", "c"] = .ok bytes' ∧ (bytes = bytes' → ["a", "bc"] = ["ab", "c"]) :=
  record_keys_distinct.1 ["a", "bc"] ["ab", "c"] (by decide) (by decide)

end ActiveGraphSurreal
