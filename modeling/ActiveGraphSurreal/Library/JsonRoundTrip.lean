import ActiveGraphSurreal.Library.JsonText

/-!
# Reading compact JSON text back

`parse_render` says that the reader recovers a value from its compact text. Two values
with one canonical text therefore have one canonical form.
-/

namespace Library

namespace Json

variable {S : Type} [ScalarText S]

/-! ### Strings -/

lemma hexValue_hexDigit : ∀ n < 16, hexValue (hexDigit n) = some n := by decide

lemma unitChar_toNat (c : Char) : unitChar c.toNat = some c := by
  have hvalid : c.toNat.isValidChar := c.valid
  rw [unitChar, dif_pos hvalid]
  rfl

lemma scanString_quote (rest : List Char) : scanString ('"' :: rest) = some ([], rest) := by
  rw [scanString.eq_def]
  rfl

lemma scanString_plain {c : Char} (hq : c ≠ '"') (hb : c ≠ '\\') (hc : ¬c.toNat < 32)
    (rest : List Char) :
    scanString (c :: rest) = (scanString rest).map fun p => (c :: p.1, p.2) := by
  conv_lhs => rw [scanString.eq_def]
  simp [hq, hb, hc]

lemma scanString_simple {e c : Char} (he : e ≠ 'u') (hc : simpleEscape e = some c)
    (rest : List Char) :
    scanString ('\\' :: e :: rest) = (scanString rest).map fun p => (c :: p.1, p.2) := by
  conv_lhs => rw [scanString.eq_def]
  simp [he, hc]

lemma scanString_unit {a b d e c : Char} {n : Nat} (hn : hexUnit a b d e = some n)
    (hc : unitChar n = some c) (rest : List Char) :
    scanString ('\\' :: 'u' :: a :: b :: d :: e :: rest) =
      (scanString rest).map fun p => (c :: p.1, p.2) := by
  conv_lhs => rw [scanString.eq_def]
  simp [hn, hc]

lemma scanString_escapeChar (c : Char) (rest : List Char) :
    scanString (escapeChar c ++ rest) = (scanString rest).map fun p => (c :: p.1, p.2) := by
  unfold escapeChar
  by_cases hq : c = '"'
  · subst hq; exact scanString_simple (by decide) (by decide) rest
  by_cases hb : c = '\\'
  · subst hb; exact scanString_simple (by decide) (by decide) rest
  by_cases hn : c = '\n'
  · subst hn; exact scanString_simple (by decide) (by decide) rest
  by_cases hr : c = '\r'
  · subst hr; exact scanString_simple (by decide) (by decide) rest
  by_cases ht : c = '\t'
  · subst ht; exact scanString_simple (by decide) (by decide) rest
  by_cases hf : c = '\x0c'
  · subst hf; exact scanString_simple (by decide) (by decide) rest
  by_cases hb' : c = '\x08'
  · subst hb'; exact scanString_simple (by decide) (by decide) rest
  simp only [hq, hb, hn, hr, ht, hf, hb', ite_false]
  by_cases hlow : c.toNat < 32
  · have hunit : hexUnit '0' '0' (hexDigit (c.toNat / 16)) (hexDigit (c.toNat % 16)) =
        some c.toNat := by
      have hzero : hexValue '0' = some 0 := by decide
      simp only [hexUnit, hzero, hexValue_hexDigit _ (show c.toNat / 16 < 16 by omega),
        hexValue_hexDigit _ (show c.toNat % 16 < 16 by omega), Option.bind_eq_bind,
        Option.bind_some, Option.pure_def, Option.some.injEq]
      omega
    rw [if_pos hlow]
    exact scanString_unit hunit (unitChar_toNat c) rest
  · rw [if_neg hlow]
    exact scanString_plain hq hb hlow rest

lemma scanString_flatMap (cs rest : List Char) :
    scanString (cs.flatMap escapeChar ++ '"' :: rest) = some (cs, rest) := by
  induction cs with
  | nil => exact scanString_quote rest
  | cons c cs ih =>
    rw [List.flatMap_cons, List.append_assoc, scanString_escapeChar, ih]
    rfl

/-! ### Numbers and constants -/

/-- What may follow a value in compact text. -/
def Stop (rest : List Char) : Prop := ∀ c ∈ rest.head?, c = ',' ∨ c = ']' ∨ c = '}'

lemma stop_nil : Stop [] := by simp [Stop]

lemma stop_cons {c : Char} (h : c = ',' ∨ c = ']' ∨ c = '}') (rest : List Char) :
    Stop (c :: rest) := by simpa [Stop] using h

def NoDigit (rest : List Char) : Prop := ∀ c ∈ rest.head?, c.isDigit = false

lemma Stop.noDigit {rest : List Char} (h : Stop rest) : NoDigit rest := by
  intro c hc
  rcases h c hc with rfl | rfl | rfl <;> rfl

lemma scanDigits_append {ds rest : List Char} (hd : ∀ c ∈ ds, c.isDigit) (hr : NoDigit rest) :
    scanDigits (ds ++ rest) = (ds, rest) := by
  have htake : rest.takeWhile Char.isDigit = [] := by
    cases rest with
    | nil => rfl
    | cons c cs => simp [hr c (by simp)]
  have hdrop : rest.dropWhile Char.isDigit = rest := by
    cases rest with
    | nil => rfl
    | cons c cs => simp [hr c (by simp)]
  rw [scanDigits, List.takeWhile_append_of_pos hd, List.dropWhile_append_of_pos hd, htake, hdrop,
    List.append_nil]

lemma scanWhole_append {ds rest : List Char} (hd : IsWhole ds) (hr : NoDigit rest) :
    scanWhole (ds ++ rest) = some (ds, rest) := by
  obtain ⟨⟨hne, hall⟩, hzero⟩ := hd
  cases ds with
  | nil => exact absurd rfl hne
  | cons c cs =>
    rw [List.cons_append, scanWhole]
    by_cases hc : c = '0'
    · have hcs : c :: cs = ['0'] := hzero (by simp [hc])
      obtain ⟨-, rfl⟩ := List.cons_eq_cons.mp hcs
      simp [hc]
    · rw [if_neg hc, if_pos (hall c List.mem_cons_self), ← List.cons_append,
        scanDigits_append hall hr]

lemma scanFraction_append {f rest : List Char} (hf : f = [] ∨ IsFraction f) (hr : NoDigit rest)
    (hdot : ∀ c ∈ rest.head?, c ≠ '.') : scanFraction (f ++ rest) = (f, rest) := by
  rcases hf with rfl | ⟨ds, ⟨hne, hall⟩, rfl⟩
  · rw [List.nil_append]
    cases rest with
    | nil => rfl
    | cons c cs =>
      have hc : c ≠ '.' := hdot c (by simp)
      rw [scanFraction]
      intro _ h
      exact hc (List.cons_eq_cons.mp h).1
  · rw [List.cons_append, scanFraction, scanDigits_append hall hr]
    cases ds with
    | nil => exact absurd rfl hne
    | cons d ds => rfl

lemma scanSign_append {sign ds : List Char} (hs : sign = [] ∨ sign = ['+'] ∨ sign = ['-'])
    (hd : IsDigits ds) (rest : List Char) :
    scanSign (sign ++ (ds ++ rest)) = (sign, ds ++ rest) := by
  rcases hs with rfl | rfl | rfl
  · cases ds with
    | nil => exact absurd rfl hd.1
    | cons d ds =>
      have hdig := hd.2 d List.mem_cons_self
      have hne (c : Char) (hc : c.isDigit = false) (cs : List Char) :
          d :: (ds ++ rest) = c :: cs → False := by
        intro h
        rw [(List.cons_eq_cons.mp h).1, hc] at hdig
        exact Bool.false_ne_true hdig
      rw [List.nil_append, List.cons_append, scanSign]
      · exact hne '+' rfl
      · exact hne '-' rfl
  · rfl
  · rfl

lemma scanExponent_append {e rest : List Char} (he : e = [] ∨ IsExponent e) (hr : Stop rest) :
    scanExponent (e ++ rest) = (e, rest) := by
  rcases he with rfl | ⟨m, sign, ds, hm, hs, hd, rfl⟩
  · cases rest with
    | nil => rfl
    | cons c cs =>
      have hc : ¬(c = 'e' ∨ c = 'E') := by
        rcases hr c (by simp) with rfl | rfl | rfl <;> decide
      rw [List.nil_append, scanExponent, if_neg hc]
  · rw [List.cons_append, scanExponent, if_pos hm, List.append_assoc, scanSign_append hs hd,
      scanDigits_append hd.2 hr.noDigit]
    cases ds with
    | nil => exact absurd rfl hd.1
    | cons d ds => rfl

lemma isDigits_toDigits (n : Nat) : IsDigits (Nat.toDigits 10 n) :=
  ⟨Nat.toDigits_ne_nil, fun _ hc => Nat.isDigit_of_mem_toDigits (by omega) (by omega) hc⟩

lemma head?_toDigits (n : Nat) (h : (Nat.toDigits 10 n).head? = some '0') : n = 0 := by
  induction n using Nat.strong_induction_on with
  | _ n ih =>
    by_cases hn : n < 10
    · rw [Nat.toDigits_of_lt_base hn, List.head?_cons, Option.some.injEq] at h
      have hdig : ∀ m < 10, Nat.digitChar m = '0' → m = 0 := by decide
      exact hdig n hn h
    · rw [Nat.toDigits_of_base_le (by omega) (by omega), List.head?_append,
        List.head?_eq_some_head Nat.toDigits_ne_nil] at h
      have := ih (n / 10) (by omega) (by
        rw [List.head?_eq_some_head Nat.toDigits_ne_nil]
        simpa using h)
      omega

lemma isWhole_toDigits (n : Nat) : IsWhole (Nat.toDigits 10 n) := by
  refine ⟨isDigits_toDigits n, fun h => ?_⟩
  rw [head?_toDigits n h, Nat.toDigits_zero]

lemma scanNumber_int (sign : List Char) (negative : Bool) (n : Nat) {rest : List Char}
    (hr : Stop rest) :
    scanNumber (S := S) sign negative (Nat.toDigits 10 n ++ rest) =
      some (.int (if negative then -(n : Int) else n), rest) := by
  have hdot : ∀ c ∈ rest.head?, c ≠ '.' := by
    intro c hc
    rcases hr c hc with rfl | rfl | rfl <;> decide
  have hf : scanFraction rest = ([], rest) :=
    scanFraction_append (f := []) (.inl rfl) hr.noDigit hdot
  have he : scanExponent rest = ([], rest) := scanExponent_append (e := []) (.inl rfl) hr
  simp [scanNumber, scanWhole_append (isWhole_toDigits n) hr.noDigit, hf, he, natOfDigits]

lemma scanNumber_scalar (sign : List Char) (negative : Bool)
    {whole fraction exponent rest : List Char} (hw : IsWhole whole)
    (hf : fraction = [] ∨ IsFraction fraction) (he : exponent = [] ∨ IsExponent exponent)
    (hfe : fraction ≠ [] ∨ exponent ≠ []) (hr : Stop rest) :
    scanNumber (S := S) sign negative (whole ++ (fraction ++ exponent) ++ rest) =
      some (.scalar (ScalarText.ofText (sign ++ (whole ++ (fraction ++ exponent)))), rest) := by
  have hexp : NoDigit (exponent ++ rest) ∧ ∀ c ∈ (exponent ++ rest).head?, c ≠ '.' := by
    rcases he with rfl | ⟨m, s, ds, hm, -, -, rfl⟩
    · refine ⟨hr.noDigit, fun c hc => ?_⟩
      rcases hr c hc with rfl | rfl | rfl <;> decide
    · constructor <;> intro c hc <;> rcases hm with rfl | rfl <;> simp at hc <;> subst hc <;> decide
  have hfrac : NoDigit (fraction ++ (exponent ++ rest)) := by
    rcases hf with rfl | ⟨ds, -, rfl⟩
    · exact hexp.1
    · intro c hc
      simp at hc
      subst hc
      rfl
  have hne : ¬(fraction = [] ∧ exponent = []) := by tauto
  simp only [List.append_assoc, scanNumber, scanWhole_append hw hfrac,
    scanFraction_append hf hexp.1 hexp.2, scanExponent_append he hr, Option.bind_eq_bind,
    Option.bind_some, hne, ite_false, Option.pure_def]

lemma IsDigits.head {ds : List Char} (h : IsDigits ds) : ∃ d t, ds = d :: t ∧ d.isDigit := by
  cases ds with
  | nil => exact absurd rfl h.1
  | cons d t => exact ⟨d, t, rfl, h.2 d List.mem_cons_self⟩

omit [ScalarText S] in
lemma expect_eq_none {w c : Char} (h : w ≠ c) (word : List Char) (value : Json S)
    (cs : List Char) : expect (w :: word) value (c :: cs) = none := by
  rw [expect, if_neg]
  intro hp
  exact h (List.cons_prefix_cons.mp hp).1

omit [ScalarText S] in
lemma expect_append (word : List Char) (value : Json S) (rest : List Char) :
    expect word value (word ++ rest) = some (value, rest) := by
  simp [expect]

lemma digit_ne {d : Char} (h : d.isDigit) :
    d ≠ '"' ∧ d ≠ '{' ∧ d ≠ '[' ∧ d ≠ ']' ∧ d ≠ '}' ∧ d ≠ 'n' ∧ d ≠ 't' ∧ d ≠ 'f' ∧ d ≠ '-' ∧
      d ≠ ' ' ∧ d ≠ '\t' ∧ d ≠ '\n' ∧ d ≠ '\r' := by
  refine ⟨?_, ?_, ?_, ?_, ?_, ?_, ?_, ?_, ?_, ?_, ?_, ?_, ?_⟩ <;> rintro rfl <;> simp at h

lemma scanAtom_digit {d : Char} (hd : d.isDigit) {cs rest : List Char} {j : Json S}
    (h : scanNumber [] false (d :: cs) = some (j, rest)) :
    scanAtom (d :: cs) = some (j, rest) := by
  obtain ⟨-, -, -, -, -, hn, ht, hf, hm, -⟩ := digit_ne hd
  rw [scanAtom, expect_eq_none hn.symm, expect_eq_none ht.symm, expect_eq_none hf.symm, scanSigned,
    if_neg hm, h]
  rfl

lemma scanAtom_minus {cs rest : List Char} {j : Json S}
    (h : scanNumber ['-'] true cs = some (j, rest)) :
    scanAtom ('-' :: cs) = some (j, rest) := by
  rw [scanAtom, expect_eq_none (by decide), expect_eq_none (by decide), expect_eq_none (by decide),
    scanSigned, if_pos rfl, h]
  rfl

lemma scanAtom_int (n : Int) {rest : List Char} (hr : Stop rest) :
    scanAtom (S := S) (intText n ++ rest) = some (.int n, rest) := by
  cases n with
  | ofNat n =>
    have hscan : scanNumber (S := S) [] false (Nat.toDigits 10 n ++ rest) = some (.int n, rest) :=
      scanNumber_int [] false n hr
    obtain ⟨d, t, ht, hd⟩ := (isDigits_toDigits n).head
    rw [ht] at hscan
    rw [intText, ht]
    exact scanAtom_digit hd hscan
  | negSucc n =>
    have hscan := scanNumber_int (S := S) ['-'] true (n + 1) hr
    rw [intText, List.cons_append]
    exact scanAtom_minus hscan

/-- A text that is no number and starts none of the words of letters is a float constant. -/
lemma scanAtom_constant {c : Char} {cs : List Char} (hn : c ≠ 'n') (ht : c ≠ 't') (hf : c ≠ 'f')
    (hskip : scanSigned (S := S) (c :: cs) = none) :
    scanAtom (S := S) (c :: cs) =
      (expect nanText (.scalar (ScalarText.ofText nanText)) (c :: cs) <|>
      expect infinityText (.scalar (ScalarText.ofText infinityText)) (c :: cs) <|>
      expect ('-' :: infinityText) (.scalar (ScalarText.ofText ('-' :: infinityText))) (c :: cs)) := by
  rw [scanAtom, expect_eq_none hn.symm, expect_eq_none ht.symm, expect_eq_none hf.symm, hskip]
  rfl

lemma scanNumber_eq_none {c : Char} (cs : List Char) (h0 : c ≠ '0') (hc : c.isDigit = false)
    (sign : List Char) (negative : Bool) : scanNumber (S := S) sign negative (c :: cs) = none := by
  simp [scanNumber, scanWhole, h0, hc]

lemma scanAtom_nan (rest : List Char) :
    scanAtom (S := S) (nanText ++ rest) = some (.scalar (ScalarText.ofText nanText), rest) := by
  let x : Json S := .scalar (ScalarText.ofText nanText)
  have hskip : scanSigned (S := S) ('N' :: 'a' :: 'N' :: rest) = none :=
    scanNumber_eq_none _ (by decide) rfl [] false
  have hword : expect nanText x ('N' :: 'a' :: 'N' :: rest) = some (x, rest) :=
    expect_append nanText x rest
  have h := scanAtom_constant (S := S) (by decide) (by decide) (by decide) hskip
  rw [hword] at h
  exact h

lemma scanAtom_infinity (rest : List Char) :
    scanAtom (S := S) (infinityText ++ rest) =
      some (.scalar (ScalarText.ofText infinityText), rest) := by
  let x : Json S := .scalar (ScalarText.ofText infinityText)
  have hskip : scanSigned (S := S) ('I' :: (['n', 'f', 'i', 'n', 'i', 't', 'y'] ++ rest)) = none :=
    scanNumber_eq_none _ (by decide) rfl [] false
  have hword : expect infinityText x ('I' :: (['n', 'f', 'i', 'n', 'i', 't', 'y'] ++ rest)) =
      some (x, rest) := expect_append infinityText x rest
  have h := scanAtom_constant (S := S) (by decide) (by decide) (by decide) hskip
  rw [expect_eq_none (by decide), hword] at h
  exact h

lemma scanAtom_negInfinity (rest : List Char) :
    scanAtom (S := S) ('-' :: infinityText ++ rest) =
      some (.scalar (ScalarText.ofText ('-' :: infinityText)), rest) := by
  let x : Json S := .scalar (ScalarText.ofText ('-' :: infinityText))
  have hskip : scanSigned (S := S) ('-' :: (infinityText ++ rest)) = none :=
    scanNumber_eq_none _ (by decide) rfl ['-'] true
  have hword : expect ('-' :: infinityText) x ('-' :: (infinityText ++ rest)) = some (x, rest) :=
    expect_append ('-' :: infinityText) x rest
  have h := scanAtom_constant (S := S) (by decide) (by decide) (by decide) hskip
  rw [expect_eq_none (by decide), expect_eq_none (by decide), hword] at h
  exact h

lemma scanAtom_scalar (x : S) {rest : List Char} (hr : Stop rest) :
    scanAtom (ScalarText.text x ++ rest) = some (.scalar x, rest) := by
  have hback := ScalarText.ofText_text x
  rcases ScalarText.isScalarText x with h | h | h | ⟨sign, w, f, e, hs, hw, hf, he, hfe, h⟩
  · rw [h] at hback ⊢
    rw [scanAtom_nan, hback]
  · rw [h] at hback ⊢
    rw [scanAtom_infinity, hback]
  · rw [h] at hback ⊢
    rw [scanAtom_negInfinity, hback]
  · have hscan (negative : Bool) := scanNumber_scalar (S := S) sign negative hw hf he hfe hr
    rw [← h, hback] at hscan
    rw [h]
    rcases hs with rfl | rfl
    · obtain ⟨d, t, rfl, hd⟩ := hw.1.head
      exact scanAtom_digit hd (hscan false)
    · exact scanAtom_minus (hscan true)

/-! ### Values -/

/-- The first character of a value's text is neither whitespace nor a closing bracket. -/
def Opens (cs : List Char) : Prop :=
  ∃ c t, cs = c :: t ∧ c ≠ ' ' ∧ c ≠ '\t' ∧ c ≠ '\n' ∧ c ≠ '\r' ∧ c ≠ ']'

lemma Opens.append {cs : List Char} (h : Opens cs) (rest : List Char) : Opens (cs ++ rest) := by
  obtain ⟨c, t, rfl, h⟩ := h
  exact ⟨c, t ++ rest, rfl, h⟩

lemma opens_digit {d : Char} (h : d.isDigit) (t : List Char) : Opens (d :: t) := by
  obtain ⟨-, -, -, h1, -, -, -, -, -, h2, h3, h4, h5⟩ := digit_ne h
  exact ⟨d, t, rfl, h2, h3, h4, h5, h1⟩

lemma opens_scalar (x : S) : Opens (ScalarText.text x) := by
  rcases ScalarText.isScalarText x with h | h | h | ⟨sign, w, f, e, hs, hw, hf, he, hfe, h⟩
  · exact ⟨'N', _, h, by decide⟩
  · exact ⟨'I', _, h, by decide⟩
  · exact ⟨'-', _, h, by decide⟩
  · rw [h]
    rcases hs with rfl | rfl
    · obtain ⟨d, t, rfl, hd⟩ := hw.1.head
      exact opens_digit hd _
    · exact ⟨'-', _, rfl, by decide⟩

lemma opens_render (j : Json S) : Opens (render j) := by
  cases j with
  | null => exact ⟨'n', _, rfl, by decide⟩
  | bool b => cases b <;> exact ⟨_, _, rfl, by decide⟩
  | int n =>
    cases n with
    | ofNat n =>
      obtain ⟨d, t, ht, hd⟩ := (isDigits_toDigits n).head
      rw [render, intText, ht]
      exact opens_digit hd t
    | negSucc n => exact ⟨'-', _, rfl, by decide⟩
  | str s => exact ⟨'"', _, rfl, by decide⟩
  | scalar x => exact opens_scalar x
  | arr items => cases items <;> exact ⟨'[', _, rfl, by decide⟩
  | obj members => rcases members with - | ⟨⟨k, v⟩, ms⟩ <;> exact ⟨'{', _, rfl, by decide⟩

lemma skipSpace_opens {cs : List Char} (h : Opens cs) : skipSpace cs = cs := by
  obtain ⟨c, t, rfl, h1, h2, h3, h4, -⟩ := h
  simp [skipSpace, h1, h2, h3, h4]

lemma skipSpace_cons {c : Char} (h : c ≠ ' ' ∧ c ≠ '\t' ∧ c ≠ '\n' ∧ c ≠ '\r') (t : List Char) :
    skipSpace (c :: t) = c :: t := by
  obtain ⟨h1, h2, h3, h4⟩ := h
  simp [skipSpace, h1, h2, h3, h4]

omit [ScalarText S] in
/-- Members with distinct keys are taken over one by one. -/
lemma dictOf_eq {members : List (String × Json S)} (h : (members.map Prod.fst).Nodup) :
    dictOf members = members := by
  have hfold (acc ms : List (String × Json S)) (h : ((acc ++ ms).map Prod.fst).Nodup) :
      ms.foldl insertMember acc = acc ++ ms := by
    induction ms generalizing acc with
    | nil => simp
    | cons m ms ih =>
      have hm : insertMember acc m = acc ++ [m] := by
        rw [insertMember, if_neg]
        simp only [List.any_eq_true, decide_eq_true_eq, not_exists, not_and]
        intro n hn hnm
        rw [List.map_append, List.map_cons, List.nodup_append] at h
        exact h.2.2 n.1 (List.mem_map_of_mem hn) m.1 List.mem_cons_self hnm
      rw [List.foldl_cons, hm, ih _ (by simpa using h), List.append_assoc]
      rfl
  exact hfold [] members h

/-- Reading the value `j` off the head of a text. -/
def Reads (j : Json S) : Prop :=
  ∀ fuel rest, (render j).length ≤ fuel → Stop rest →
    parseValue fuel (render j ++ rest) = some (j, rest)

lemma parseItems_render {x : Json S} {xs : List (Json S)} (h : ∀ y ∈ x :: xs, Reads y)
    (fuel : Nat) (rest : List Char) (hfuel : (render x ++ renderItems xs).length ≤ fuel) :
    parseItems fuel (render x ++ (renderItems xs ++ rest)) = some (x :: xs, rest) := by
  induction xs generalizing x fuel with
  | nil =>
    simp only [renderItems, List.length_append, List.length_singleton] at hfuel
    obtain ⟨fuel, rfl⟩ : ∃ f, fuel = f + 1 := ⟨fuel - 1, by omega⟩
    have hx := h x (by simp) fuel (']' :: rest) (by omega) (stop_cons (by simp) rest)
    simp [parseItems, renderItems, hx, skipSpace]
  | cons y ys ih =>
    simp only [renderItems, List.length_append, List.length_cons] at hfuel
    obtain ⟨fuel, rfl⟩ : ∃ f, fuel = f + 1 := ⟨fuel - 1, by omega⟩
    have hx := h x (by simp) fuel (',' :: (render y ++ (renderItems ys ++ rest))) (by omega)
      (stop_cons (by simp) _)
    have hys := ih (fun z hz => h z (List.mem_cons_of_mem x hz)) fuel
      (by simp only [List.length_append]; omega)
    have hskip := skipSpace_opens ((opens_render y).append (renderItems ys ++ rest))
    simp only [renderItems, List.cons_append, List.append_assoc, parseItems, hx]
    rw [skipSpace_cons (by decide)]
    simp [hskip, hys]

lemma parseMembers_render {k : String} {v : Json S} {ms : List (String × Json S)}
    (h : ∀ m ∈ (k, v) :: ms, Reads m.2) (fuel : Nat) (rest : List Char)
    (hfuel : (stringText k ++ ':' :: (render v ++ renderMembers ms)).length ≤ fuel) :
    parseMembers fuel (stringText k ++ ':' :: (render v ++ (renderMembers ms ++ rest))) =
      some ((k, v) :: ms, rest) := by
  induction ms generalizing k v fuel with
  | nil =>
    simp only [renderMembers, List.length_append, List.length_cons] at hfuel
    obtain ⟨fuel, rfl⟩ : ∃ f, fuel = f + 1 := ⟨fuel - 1, by omega⟩
    have hv := h (k, v) (by simp) fuel ('}' :: rest) (by simp only at *; omega)
      (stop_cons (by simp) rest)
    have hskip := skipSpace_opens ((opens_render v).append ('}' :: rest))
    simp only [stringText, renderMembers, List.cons_append, List.append_assoc, List.nil_append,
      parseMembers, ite_true, scanString_flatMap]
    rw [skipSpace_cons (by decide)]
    simp only [ite_true, hskip, hv]
    rw [skipSpace_cons (by decide)]
    simp
  | cons m ms ih =>
    obtain ⟨k', v'⟩ := m
    simp only [renderMembers, List.length_append, List.length_cons] at hfuel
    obtain ⟨fuel, rfl⟩ : ∃ f, fuel = f + 1 := ⟨fuel - 1, by omega⟩
    have hv := h (k, v) (by simp) fuel
      (',' :: (stringText k' ++ ':' :: (render v' ++ (renderMembers ms ++ rest))))
      (by simp only at *; omega) (stop_cons (by simp) _)
    have hms := ih (fun n hn => h n (List.mem_cons_of_mem _ hn)) fuel
      (by simp only [List.length_append, List.length_cons]; omega)
    have hskip := skipSpace_opens ((opens_render v).append
      (',' :: (stringText k' ++ ':' :: (render v' ++ (renderMembers ms ++ rest)))))
    have hkey : skipSpace (stringText k' ++ ':' :: (render v' ++ (renderMembers ms ++ rest))) =
        stringText k' ++ ':' :: (render v' ++ (renderMembers ms ++ rest)) :=
      skipSpace_cons (by decide) _
    rw [stringText, List.cons_append, List.append_assoc, List.singleton_append, parseMembers]
    simp only [ite_true, scanString_flatMap]
    rw [skipSpace_cons (by decide)]
    simp only [ite_true, renderMembers, List.cons_append, List.append_assoc, hskip, hv]
    rw [skipSpace_cons (by decide)]
    simp [hkey, hms]

lemma parseValue_atom {fuel : Nat} {cs : List Char} (hpos : cs ≠ [])
    (h : ∀ c ∈ cs.head?, c ≠ '"' ∧ c ≠ '{' ∧ c ≠ '[') :
    parseValue (S := S) (fuel + 1) cs = scanAtom cs := by
  cases cs with
  | nil => exact absurd rfl hpos
  | cons c cs =>
    obtain ⟨h1, h2, h3⟩ := h c (by simp)
    rw [parseValue, if_neg h1, if_neg h2, if_neg h3]

/-- The reader takes the compact text of a value off the head of a text, given fuel for
the length of that text. -/
theorem reads_of_distinct (j : Json S) (hj : Distinct j) : Reads j := by
  induction j with
  | null =>
    intro fuel rest hfuel hr
    obtain ⟨fuel, rfl⟩ : ∃ f, fuel = f + 1 := ⟨fuel - 1, by simp [render] at hfuel; omega⟩
    rw [render, parseValue_atom (by simp) (by simp), scanAtom, expect_append]
    rfl
  | bool b =>
    intro fuel rest hfuel hr
    obtain ⟨fuel, rfl⟩ : ∃ f, fuel = f + 1 :=
      ⟨fuel - 1, by cases b <;> simp [render] at hfuel <;> omega⟩
    cases b with
    | true =>
      rw [render, parseValue_atom (by simp) (by simp), scanAtom]
      have hnull : expect (S := S) nullText .null (trueText ++ rest) = none :=
        expect_eq_none (by decide) _ _ _
      rw [hnull, expect_append]
      rfl
    | false =>
      rw [render, parseValue_atom (by simp) (by simp), scanAtom]
      have hnull : expect (S := S) nullText .null (falseText ++ rest) = none :=
        expect_eq_none (by decide) _ _ _
      have htrue : expect (S := S) trueText (.bool true) (falseText ++ rest) = none :=
        expect_eq_none (by decide) _ _ _
      rw [hnull, htrue, expect_append]
      rfl
  | int n =>
    intro fuel rest hfuel hr
    have hhead : ∃ c t, intText n = c :: t ∧ c ≠ '"' ∧ c ≠ '{' ∧ c ≠ '[' := by
      cases n with
      | ofNat n =>
        obtain ⟨d, t, ht, hd⟩ := (isDigits_toDigits n).head
        obtain ⟨h1, h2, h3, -⟩ := digit_ne hd
        exact ⟨d, t, ht, h1, h2, h3⟩
      | negSucc n => exact ⟨'-', _, rfl, by decide⟩
    obtain ⟨c, t, ht, hc⟩ := hhead
    rw [render] at hfuel ⊢
    obtain ⟨fuel, rfl⟩ : ∃ f, fuel = f + 1 := ⟨fuel - 1, by simp [ht] at hfuel; omega⟩
    rw [parseValue_atom (by simp [ht]) (by simpa [ht] using hc), scanAtom_int n hr]
  | str s =>
    intro fuel rest hfuel hr
    obtain ⟨fuel, rfl⟩ : ∃ f, fuel = f + 1 :=
      ⟨fuel - 1, by simp [render, stringText] at hfuel; omega⟩
    simp [render, stringText, parseValue, scanString_flatMap]
  | scalar x =>
    intro fuel rest hfuel hr
    have hhead : ∃ c t, ScalarText.text x = c :: t ∧ c ≠ '"' ∧ c ≠ '{' ∧ c ≠ '[' := by
      rcases ScalarText.isScalarText x with h | h | h | ⟨sign, w, f, e, hs, hw, hf, he, hfe, h⟩
      · exact ⟨'N', _, h, by decide⟩
      · exact ⟨'I', _, h, by decide⟩
      · exact ⟨'-', _, h, by decide⟩
      · rcases hs with rfl | rfl
        · obtain ⟨d, t, rfl, hd⟩ := hw.1.head
          obtain ⟨h1, h2, h3, -⟩ := digit_ne hd
          exact ⟨d, _, h, h1, h2, h3⟩
        · exact ⟨'-', _, h, by decide⟩
    obtain ⟨c, t, ht, hc⟩ := hhead
    rw [render] at hfuel ⊢
    obtain ⟨fuel, rfl⟩ : ∃ f, fuel = f + 1 := ⟨fuel - 1, by simp [ht] at hfuel; omega⟩
    rw [parseValue_atom (by simp [ht]) (by simpa [ht] using hc), scanAtom_scalar x hr]
  | arr items ih =>
    intro fuel rest hfuel hr
    rw [distinct_arr] at hj
    cases items with
    | nil =>
      obtain ⟨fuel, rfl⟩ : ∃ f, fuel = f + 1 := ⟨fuel - 1, by simp [render] at hfuel; omega⟩
      simp [render, parseValue, skipSpace]
    | cons x xs =>
      rw [render, List.length_cons] at hfuel
      obtain ⟨fuel, rfl⟩ : ∃ f, fuel = f + 1 := ⟨fuel - 1, by omega⟩
      have hitems := parseItems_render (fun y hy => ih y hy (hj y hy)) fuel rest (by omega)
      have hopens := (opens_render x).append (renderItems xs ++ rest)
      have hskip := skipSpace_opens hopens
      obtain ⟨c, t, hc, -, -, -, -, hbracket⟩ := hopens
      rw [render, List.cons_append, List.append_assoc, parseValue]
      rw [hc] at hskip hitems ⊢
      simp [hskip, hitems, hbracket]
  | obj members ih =>
    intro fuel rest hfuel hr
    rw [distinct_obj] at hj
    cases members with
    | nil =>
      obtain ⟨fuel, rfl⟩ : ∃ f, fuel = f + 1 := ⟨fuel - 1, by simp [render] at hfuel; omega⟩
      simp [render, parseValue, skipSpace]
    | cons m ms =>
      obtain ⟨k, v⟩ := m
      rw [render, List.length_cons] at hfuel
      obtain ⟨fuel, rfl⟩ : ∃ f, fuel = f + 1 := ⟨fuel - 1, by omega⟩
      have hmembers := parseMembers_render (fun m hm => ih m hm (hj.2 m hm)) fuel rest (by omega)
      have hskip (cs : List Char) : skipSpace (stringText k ++ cs) = stringText k ++ cs :=
        skipSpace_cons (by decide) _
      rw [render, List.cons_append, List.append_assoc, List.cons_append, List.append_assoc,
        parseValue, if_neg (by decide), if_pos rfl, hskip]
      rw [stringText, List.cons_append, List.append_assoc, List.singleton_append] at hmembers ⊢
      simp [hmembers, dictOf_eq hj.1]

/-- Reading compact text back gives the value that was written. -/
theorem parse_render {j : Json S} (hj : Distinct j) : parse (render j) = some j := by
  have hskip := skipSpace_opens (opens_render j)
  have hread := reads_of_distinct j hj ((render j).length + 1) [] (by omega) stop_nil
  rw [List.append_nil] at hread
  rw [parse, hskip, hread]
  rfl

/-- One text, one value. -/
theorem render_injective {i j : Json S} (hi : Distinct i) (hj : Distinct j)
    (h : render i = render j) : i = j := by
  have hread := parse_render hi
  rw [h, parse_render hj] at hread
  exact (Option.some.inj hread).symm

/-! ### What a text can hold -/

omit [ScalarText S] in
lemma insertMember_nodup {members : List (String × Json S)} (m : String × Json S)
    (h : (members.map Prod.fst).Nodup) : ((insertMember members m).map Prod.fst).Nodup := by
  unfold insertMember
  by_cases hany : members.any fun n => n.1 = m.1
  · have hkeys : (members.map fun n => if n.1 = m.1 then m else n).map Prod.fst =
        members.map Prod.fst := by
      rw [List.map_map]
      apply List.map_congr_left
      intro n _
      by_cases hn : n.1 = m.1 <;> simp [hn]
    rwa [if_pos hany, hkeys]
  · rw [if_neg hany, List.map_append, List.nodup_append]
    refine ⟨h, List.nodup_singleton _, ?_⟩
    intro k hk k' hk' heq
    obtain ⟨n, hn, rfl⟩ := List.mem_map.mp hk
    simp only [List.map_cons, List.map_nil, List.mem_singleton] at hk'
    exact hany (List.any_eq_true.mpr ⟨n, hn, by simp [heq, hk']⟩)

omit [ScalarText S] in
lemma mem_insertMember {members : List (String × Json S)} {m n : String × Json S}
    (h : n ∈ insertMember members m) : n ∈ members ∨ n = m := by
  unfold insertMember at h
  split at h
  · obtain ⟨a, ha, hn⟩ := List.mem_map.mp h
    by_cases hkey : a.1 = m.1
    · rw [if_pos hkey] at hn
      exact .inr hn.symm
    · rw [if_neg hkey] at hn
      exact .inl (hn ▸ ha)
  · simpa using h

omit [ScalarText S] in
lemma distinct_dictOf {pairs : List (String × Json S)} (h : ∀ m ∈ pairs, Distinct m.2) :
    Distinct (.obj (dictOf pairs)) := by
  have hfold (acc : List (String × Json S)) (hacc : Distinct (.obj acc)) :
      Distinct (.obj (pairs.foldl insertMember acc)) := by
    induction pairs generalizing acc with
    | nil => exact hacc
    | cons m ms ih =>
      rw [List.foldl_cons]
      apply ih (fun n hn => h n (List.mem_cons_of_mem m hn))
      rw [distinct_obj] at hacc ⊢
      refine ⟨insertMember_nodup m hacc.1, fun n hn => ?_⟩
      rcases mem_insertMember hn with hn | rfl
      · exact hacc.2 n hn
      · exact h n List.mem_cons_self
  exact hfold [] (by simp [distinct_obj])

lemma distinct_scanNumber {sign : List Char} {negative : Bool} {cs rest : List Char} {j : Json S}
    (h : scanNumber sign negative cs = some (j, rest)) : Distinct j := by
  simp only [scanNumber, Option.bind_eq_bind, Option.bind_eq_some_iff, Option.pure_def] at h
  obtain ⟨p, -, h⟩ := h
  split at h <;> cases h <;> trivial

lemma distinct_scanAtom {cs rest : List Char} {j : Json S} (h : scanAtom cs = some (j, rest)) :
    Distinct j := by
  have hword {word : List Char} {value : Json S} (h : expect word value cs = some (j, rest))
      (hv : Distinct value) : Distinct j := by
    unfold expect at h
    split at h
    · cases h
      exact hv
    · cases h
  have hsigned (h : scanSigned cs = some (j, rest)) : Distinct j := by
    cases cs with
    | nil => cases h
    | cons c cs =>
      rw [scanSigned] at h
      split at h <;> exact distinct_scanNumber h
  simp only [scanAtom, Option.orElse_eq_orElse, Option.orElse_eq_or, Option.or_eq_some_iff] at h
  rcases h with h | ⟨-, h | ⟨-, h | ⟨-, h | ⟨-, h | ⟨-, h | ⟨-, h⟩⟩⟩⟩⟩⟩
  · exact hword h trivial
  · exact hword h trivial
  · exact hword h trivial
  · exact hsigned h
  · exact hword h trivial
  · exact hword h trivial
  · exact hword h trivial

/-- Every value that the reader returns has distinct keys in its objects. -/
theorem distinct_parseValue (fuel : Nat) :
    (∀ cs (j : Json S) rest, parseValue fuel cs = some (j, rest) → Distinct j) ∧
    (∀ cs (items : List (Json S)) rest, parseItems fuel cs = some (items, rest) →
      ∀ x ∈ items, Distinct x) ∧
    (∀ cs (ms : List (String × Json S)) rest, parseMembers fuel cs = some (ms, rest) →
      ∀ m ∈ ms, Distinct m.2) := by
  induction fuel with
  | zero => simp [parseValue, parseItems, parseMembers]
  | succ fuel ih =>
    obtain ⟨ihv, ihi, ihm⟩ := ih
    refine ⟨?_, ?_, ?_⟩
    · intro cs j rest h
      cases cs with
      | nil => cases h
      | cons c cs =>
        rw [parseValue] at h
        split at h
        · obtain ⟨p, -, hp⟩ := Option.map_eq_some_iff.mp h
          cases hp
          trivial
        split at h
        · split at h
          · cases h
          · split at h
            · cases h
              simp [distinct_obj]
            · obtain ⟨p, hp, heq⟩ := Option.map_eq_some_iff.mp h
              cases heq
              exact distinct_dictOf (ihm _ _ _ hp)
        split at h
        · split at h
          · cases h
          · split at h
            · cases h
              simp [distinct_arr]
            · obtain ⟨p, hp, heq⟩ := Option.map_eq_some_iff.mp h
              cases heq
              exact (distinct_arr _).mpr (ihi _ _ _ hp)
        · exact distinct_scanAtom h
    · intro cs items rest h
      rw [parseItems] at h
      split at h
      · cases h
      · rename_i x cs' hx
        have hdx := ihv _ _ _ hx
        split at h
        · cases h
        · split at h
          · cases h
            simpa using hdx
          · split at h
            · obtain ⟨p, hp, heq⟩ := Option.map_eq_some_iff.mp h
              cases heq
              have htail := ihi _ _ _ hp
              simpa using ⟨hdx, htail⟩
            · cases h
    · intro cs ms rest h
      cases cs with
      | nil => cases h
      | cons q cs =>
        rw [parseMembers] at h
        split at h
        · split at h
          · cases h
          · split at h
            · cases h
            · split at h
              · split at h
                · cases h
                · rename_i v cs' hv
                  have hdv := ihv _ _ _ hv
                  split at h
                  · cases h
                  · split at h
                    · cases h
                      simpa using hdv
                    · split at h
                      · obtain ⟨p, hp, heq⟩ := Option.map_eq_some_iff.mp h
                        cases heq
                        intro m hm
                        rcases List.mem_cons.mp hm with rfl | hm
                        · exact hdv
                        · exact ihm _ _ _ hp m hm
                      · cases h
              · cases h
        · cases h

theorem distinct_parse {cs : List Char} {j : Json S} (h : parse cs = some j) : Distinct j := by
  rw [parse] at h
  split at h
  · rename_i j' rest hread
    split at h
    · cases h
      exact (distinct_parseValue _).1 _ _ _ hread
    · cases h
  · cases h

end Json

end Library
