import ActiveGraphSurreal.Proofs.Canonical

/-!
# A reference encoder

What is assumed of the encoder and the digest can be met: by the encoder that renders every
value without duplicate keys, and by a digest that spells its bytes.
-/

namespace ActiveGraphSurreal

open Library

set_option linter.unusedSectionVars false

/-- `NaN` as the only floating-point number. -/
instance : Json.ScalarText Unit where
  text _ := Json.nanText
  ofText _ := ()
  ofText_text _ := rfl
  isScalarText _ := .inl rfl

variable {F : Type}

/-- The JSON value behind a value without foreign parts. -/
def strip (value : PyValue F Empty) : Json F := value.map (Sum.elim id Empty.elim)

lemma strip_plain (j : Json F) : strip (plain j) = j :=
  Json.map_map_of_leftInverse (fun _ => rfl) j

def spell (bytes : List UInt8) : String := String.ofList (bytes.map fun b => Char.ofNat b.toNat)

lemma spell_injective : Function.Injective spell := by
  intro a b h
  have hchars := String.ofList_injective h
  refine List.map_injective_iff.mpr ?_ hchars
  intro x y hxy
  have hvalid : ∀ z : UInt8, (Char.ofNat z.toNat).toNat = z.toNat := by
    intro z
    have hz := z.toNat_lt
    have hchar : z.toNat.isValidChar := by
      unfold Nat.isValidChar
      omega
    unfold Char.ofNat
    rw [dif_pos hchar]
    rfl
  apply UInt8.toNat_inj.mp
  rw [← hvalid x, ← hvalid y]
  exact congrArg Char.toNat hxy

variable [Json.ScalarText F]

variable (F) in
def reference : Env F Empty where
  sha256 := spell
  encodePayload value :=
    if (strip value).Distinct then .ok (dumps (strip value))
    else .error ⟨.typeError, "keys must be distinct"⟩
  isPrintable _ := true
  decodeError text := text

lemma adapt_reference {value : PyValue F Empty} {j : Json F} :
    adapt (reference F) value = .ok j ↔ (strip value).Distinct ∧ j = (strip value).canon := by
  unfold adapt reference
  by_cases hv : (strip value).Distinct
  · simp only [hv, if_true, true_and]
    change loads _ _ = _ ↔ _
    rw [loads_dumps hv, Except.ok.injEq, eq_comm]
  · simp only [hv, if_false, false_and, iff_false]
    exact nofun

theorem reference_collisionFree : CollisionFree (reference F) := spell_injective

theorem reference_encodesJson : EncodesJson (reference F) := by
  intro j hj
  refine ⟨j.canon, ?_, Json.canon_canon j⟩
  rw [adapt_reference, strip_plain]
  exact ⟨hj, rfl⟩

theorem reference_encodesDict : EncodesDict (reference F) := by
  intro members adapted hnodup hadapted
  have hstrip : strip (.obj members) = .obj (members.map (Prod.map id strip)) := by
    unfold strip
    rw [Json.map, Json.mapMembers_eq]
  have hvalues : (∀ m ∈ members, (strip m.2).Distinct) ∧
      ((members.map Prod.fst).zip adapted).map (Prod.map id Json.canon) =
        (members.map (Prod.map id strip)).map (Prod.map id Json.canon) := by
    clear hstrip hnodup
    induction hadapted with
    | nil => exact ⟨by simp, rfl⟩
    | @cons m j ms js hm _ ih =>
      obtain ⟨hdistinct, rfl⟩ := adapt_reference.mp hm
      refine ⟨?_, ?_⟩
      · rintro n (_ | ⟨_, hn⟩)
        · exact hdistinct
        · exact ih.1 n hn
      · simp only [List.map_cons, List.zip_cons_cons, ih.2, Prod.map, id_eq, Json.canon_canon]
  refine ⟨(strip (.obj members)).canon, ?_, ?_⟩
  · rw [adapt_reference, hstrip, Json.distinct_obj]
    refine ⟨⟨?_, ?_⟩, rfl⟩
    · simpa [Function.comp_def] using hnodup
    · intro m hm
      obtain ⟨n, hn, rfl⟩ := List.mem_map.mp hm
      exact hvalues.1 n hn
  · rw [Json.canon_canon, hstrip]
    exact (Json.canon_obj_congr hvalues.2).symm

/-! ### A reference server -/

/-- A server whose errors are named after their causes. -/
def referenceSdk : Sdk where
  className
    | .undefinedTable _ => "NotFoundError"
    | .recordExists _ _ => "AlreadyExistsError"
    | .indexContains _ => "QueryError"
    | .badValue _ => "ValidationError"
    | .writeConflict => "TransactionError"
    | .noTransaction => "TransactionError"
  text
    | .undefinedTable table => "The table '" ++ table.name ++ "' does not exist"
    | .recordExists table key => "Database record " ++ table.name ++ ":" ++ key ++ " already exists"
    | .indexContains index => "Database index " ++ index ++ " already contains this value"
    | .badValue field => "Couldn't coerce value for field " ++ field
    | .writeConflict => "Transaction conflict"
    | .noTransaction => "Transaction not found"
  now := "2026-01-01T00:00:00Z"
  scan rows := rows
  maxLimit := 2 ^ 32 - 1
  one_le_maxLimit := by decide

/-- Every client as a server that carries out its calls sees it. -/
def performAll (sdk : Sdk) (i : Nat) : (c : Call) → Database → Answer c × Database :=
  (engine sdk).perform i

def referenceEvent (id : String) : Event Unit Empty :=
  ⟨id, "note", .obj [("text", .str id)], none, none, none, "2026-01-01T00:00:00Z"⟩

/-- What is stored of it. -/
def referenceLogged (id : String) : LogEvent Unit :=
  ⟨id, "note", .obj [("text", .str id)], none, none, none, "2026-01-01T00:00:00Z", rfl,
    ⟨List.nodup_singleton _, trivial, trivial⟩⟩

lemma normal_referenceEvent (id : String) :
    Normal (reference Unit) (referenceEvent id) (referenceLogged id) :=
  normal_toEvent reference_encodesJson (referenceLogged id)

end ActiveGraphSurreal
