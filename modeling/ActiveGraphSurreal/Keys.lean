import ActiveGraphSurreal.Errors
import ActiveGraphSurreal.Library.Framing

/-!
# Record keys
-/

namespace ActiveGraphSurreal

open Library

/-- The UTF-8 encoding of a string. -/
def utf8 (s : String) : List UInt8 := s.toByteArray.data.toList

lemma utf8_inj {s t : String} (h : utf8 s = utf8 t) : s = t :=
  String.toByteArray_inj.mp (ByteArray.ext (Array.toList_inj.mp h))

/-- `n.to_bytes(width, "big")` -/
def toBytes (width n : Nat) : Except PyErr (List UInt8) :=
  if n < 256 ^ width then .ok (bigEndian width n)
  else .error ⟨.overflowError, "int too big to convert"⟩

/-- The bytes that `record_key` feeds to its digest, part by part. -/
def recordKeyBytes : List String → Except PyErr (List UInt8)
  | [] => .ok []
  | part :: parts => do
    let encoded := utf8 part
    let length ← toBytes 8 encoded.length
    let rest ← recordKeyBytes parts
    return length ++ encoded ++ rest

def recordKey (sha256 : List UInt8 → String) (parts : List String) : Except PyErr String := do
  return sha256 (← recordKeyBytes parts)

inductive Table where
  | agSchema
  | agRun
  | agEvent
  | agProjection
  | agVertex
  | agRelation
  | agPatch
  deriving DecidableEq, Repr

def Table.name : Table → String
  | agSchema => "ag_schema"
  | agRun => "ag_run"
  | agEvent => "ag_event"
  | agProjection => "ag_projection"
  | agVertex => "ag_vertex"
  | agRelation => "ag_relation"
  | agPatch => "ag_patch"

lemma Table.name_injective : Function.Injective Table.name := by
  intro s t h
  cases s <;> cases t <;> first | rfl | exact absurd h (by decide)

structure RecordId (table : Table) where
  key : String
  deriving DecidableEq, Repr

/-- `SurrealConnection.record_id` -/
def recordId (sha256 : List UInt8 → String) (table : Table) (parts : List String) :
    Except PyErr (RecordId table) := do
  return ⟨← recordKey sha256 (table.name :: parts)⟩

/-! ### Distinct parts have distinct keys -/

lemma toBytes_ok {width n : Nat} {bytes : List UInt8} (h : toBytes width n = .ok bytes) :
    n < 256 ^ width ∧ bytes = bigEndian width n := by
  unfold toBytes at h
  split at h
  · next hn => exact ⟨hn, (Except.ok.inj h).symm⟩
  · cases h

lemma recordKeyBytes_ok {parts : List String} {bytes : List UInt8}
    (h : recordKeyBytes parts = .ok bytes) :
    bytes = frames 8 (parts.map utf8) ∧ ∀ part ∈ parts, (utf8 part).length < 256 ^ 8 := by
  induction parts generalizing bytes with
  | nil => exact ⟨(Except.ok.inj h).symm, by simp⟩
  | cons part parts ih =>
    obtain ⟨length, hlength, h⟩ := bind_eq_ok.mp h
    obtain ⟨rest, hrest, h⟩ := bind_eq_ok.mp h
    obtain ⟨hlt, rfl⟩ := toBytes_ok hlength
    obtain ⟨rfl, hparts⟩ := ih hrest
    obtain rfl := pure_eq_ok.mp h
    refine ⟨by simp [frames, frame], ?_⟩
    intro p hp
    rcases List.mem_cons.mp hp with rfl | hp
    · exact hlt
    · exact hparts p hp

theorem recordKeyBytes_inj {ps qs : List String} {bytes : List UInt8}
    (hp : recordKeyBytes ps = .ok bytes) (hq : recordKeyBytes qs = .ok bytes) : ps = qs := by
  obtain ⟨rfl, hps⟩ := recordKeyBytes_ok hp
  obtain ⟨heq, hqs⟩ := recordKeyBytes_ok hq
  have hutf8 : ps.map utf8 = qs.map utf8 := by
    apply frames_inj (by decide) _ _ heq
    · simpa using hps
    · simpa using hqs
  exact List.map_injective_iff.mpr (fun _ _ => utf8_inj) hutf8

variable {sha256 : List UInt8 → String}

lemma recordId_ok {table : Table} {parts : List String} {r : RecordId table}
    (h : recordId sha256 table parts = .ok r) :
    ∃ bytes, recordKeyBytes (table.name :: parts) = .ok bytes ∧ sha256 bytes = r.key := by
  obtain ⟨key, hkey, h⟩ := bind_eq_ok.mp h
  obtain ⟨bytes, hb, hkey⟩ := bind_eq_ok.mp hkey
  obtain rfl := pure_eq_ok.mp hkey
  obtain rfl := pure_eq_ok.mp h
  exact ⟨bytes, hb, rfl⟩

/-- Without hash collisions, one record belongs to one list of parts. -/
theorem recordId_inj (hsha : Function.Injective sha256) {table : Table} {ps qs : List String}
    {r : RecordId table} (hp : recordId sha256 table ps = .ok r)
    (hq : recordId sha256 table qs = .ok r) : ps = qs := by
  obtain ⟨b, hb, hbr⟩ := recordId_ok hp
  obtain ⟨c, hc, hcr⟩ := recordId_ok hq
  obtain rfl := hsha (hbr.trans hcr.symm)
  exact (List.cons.inj (recordKeyBytes_inj hb hc)).2

end ActiveGraphSurreal
