import ActiveGraphSurreal.Proofs.Mutating
import ActiveGraphSurreal.Proofs.Neighborhood
import Mathlib.Data.List.TakeWhile
import Mathlib.Data.Nat.Digits.Defs

/-!
# Counters of ids

The counter that a graph store reads from an id, the ids whose counter the database takes, and
those whose counter it keeps.
-/

namespace ActiveGraphSurreal

open Library

set_option linter.unusedSectionVars false

/-! ### The digits of an id -/

/-- The id ends in `#` and these digits, or in these and a newline. -/
structure EndsIn (id : String) (digits : List Char) : Prop where
  nonempty : digits ≠ []
  decimal : ∀ c ∈ digits, (decimalValue c).isSome
  split : ∃ stem, id.toList = stem ++ '#' :: digits ∨ id.toList = stem ++ '#' :: digits ++ ['\n']

/-- The number that digits denote. -/
def denoted (digits : List Char) : Nat :=
  Nat.ofDigits 10 (digits.reverse.map fun c => (decimalValue c).getD 0)

/-- The digits at the end of an id, if there are any, are few enough for `int` and denote a
number below the bound. -/
def CounterBelow (bound : Nat) (id : String) : Prop :=
  ∀ digits, EndsIn id digits → digits.length ≤ maxStrDigits ∧ denoted digits < bound

/-- The counter of the id is in the range of the field. -/
def CounterFits (id : String) : Prop := CounterBelow (2 ^ 63) id

/-- The counter of the id is one that the database takes, within the range of the field or
beyond it. -/
def CounterTaken (id : String) : Prop := CounterBelow (2 ^ 64) id

lemma decimalValue_hash : (decimalValue '#').isSome = false := by decide

lemma decimalValue_newline : (decimalValue '\n').isSome = false := by decide

/-- The digits in front of the rest of a reversed id. -/
lemma takeWhile_digits {digits stem : List Char} (h : ∀ c ∈ digits, (decimalValue c).isSome) :
    (digits.reverse ++ '#' :: stem).takeWhile (fun c => (decimalValue c).isSome) =
      digits.reverse := by
  have hreverse : ∀ c ∈ digits.reverse, (decimalValue c).isSome := by
    intro c hc
    exact h c (List.mem_reverse.mp hc)
  rw [List.takeWhile_append_of_pos hreverse, List.takeWhile_cons, decimalValue_hash]
  simp

/-- The id without its final newline. -/
def trimmed (cs : List Char) : List Char := if cs.getLast? = some '\n' then cs.dropLast else cs

lemma objectSeqDigits_of_trimmed {cs digits stem : List Char} (hne : digits ≠ [])
    (hdecimal : ∀ c ∈ digits, (decimalValue c).isSome)
    (hcs : trimmed cs = stem ++ '#' :: digits) : objectSeqDigits cs = some digits := by
  have hreverse : (trimmed cs).reverse = digits.reverse ++ '#' :: stem.reverse := by
    rw [hcs]
    simp
  unfold trimmed at hreverse
  unfold objectSeqDigits
  simp only [hreverse, takeWhile_digits hdecimal, List.drop_left]
  cases hrev : digits.reverse with
  | nil => exact absurd (List.reverse_eq_nil_iff.mp hrev) hne
  | cons c rest =>
    simp only
    rw [← hrev, List.reverse_reverse]

lemma trimmed_of_objectSeqDigits {cs digits : List Char} (h : objectSeqDigits cs = some digits) :
    digits ≠ [] ∧ (∀ c ∈ digits, (decimalValue c).isSome) ∧
      ∃ stem, trimmed cs = stem ++ '#' :: digits := by
  let isDigit : Char → Bool := fun c => (decimalValue c).isSome
  let front := (trimmed cs).reverse.takeWhile isDigit
  have hfront : ∀ c ∈ front, (decimalValue c).isSome := by
    intro c hc
    have hdigit : isDigit c = true := List.mem_takeWhile_imp hc
    exact hdigit
  have hprefix : front ++ (trimmed cs).reverse.drop front.length = (trimmed cs).reverse :=
    List.prefix_iff_eq_append.mp (List.takeWhile_prefix isDigit)
  unfold objectSeqDigits at h
  simp only at h
  split at h
  · next c rest stem hdigits hrest =>
    change front = c :: rest at hdigits
    change (trimmed cs).reverse.drop front.length = '#' :: stem at hrest
    change some front.reverse = some digits at h
    obtain rfl := Option.some.inj h
    have hne : front ≠ [] := by
      rw [hdigits]
      exact List.cons_ne_nil c rest
    refine ⟨?_, ?_, stem.reverse, ?_⟩
    · exact fun hnil => hne (List.reverse_eq_nil_iff.mp hnil)
    · intro c hc
      exact hfront c (List.mem_reverse.mp hc)
    · rw [hrest] at hprefix
      have htrimmed := congrArg List.reverse hprefix
      rw [List.reverse_reverse] at htrimmed
      rw [← htrimmed]
      simp
  · cases h

/-- A text that ends in digits is its own trimming, and so is one without its newline. -/
lemma trimmed_iff {cs digits stem : List Char} (hne : digits ≠ [])
    (hdecimal : ∀ c ∈ digits, (decimalValue c).isSome) : trimmed cs = stem ++ '#' :: digits ↔
      cs = stem ++ '#' :: digits ∨ cs = stem ++ '#' :: digits ++ ['\n'] := by
  have hlast : (stem ++ '#' :: digits).getLast? ≠ some '\n' := by
    intro hnewline
    rw [List.getLast?_append_of_ne_nil _ (List.cons_ne_nil _ _), List.getLast?_cons_of_ne_nil hne]
      at hnewline
    have hmem : '\n' ∈ digits := List.mem_of_getLast? hnewline
    have hdigit := hdecimal _ hmem
    rw [decimalValue_newline] at hdigit
    cases hdigit
  unfold trimmed
  split
  · next hnewline =>
    constructor
    · intro hcs
      right
      rw [← hcs]
      exact (List.dropLast_append_getLast? _ hnewline).symm
    · rintro (rfl | rfl)
      · exact absurd hnewline hlast
      · rw [List.dropLast_concat]
  · next hnot =>
    constructor
    · exact .inl
    · rintro (rfl | rfl)
      · rfl
      · rw [List.getLast?_concat] at hnot
        exact absurd rfl hnot

/-- What the regular expression finds. -/
theorem objectSeqDigits_iff {id : String} {digits : List Char} :
    objectSeqDigits id.toList = some digits ↔ EndsIn id digits := by
  constructor
  · intro h
    obtain ⟨hne, hdecimal, stem, hstem⟩ := trimmed_of_objectSeqDigits h
    exact ⟨hne, hdecimal, stem, (trimmed_iff hne hdecimal).mp hstem⟩
  · rintro ⟨hne, hdecimal, stem, hstem⟩
    exact objectSeqDigits_of_trimmed hne hdecimal ((trimmed_iff hne hdecimal).mpr hstem)

/-! ### The number of the digits -/

lemma intOfDigits_long {digits : List Char} (h : maxStrDigits < digits.length) :
    ∃ e, intOfDigits digits = .error e := by
  unfold intOfDigits raiseIf
  rw [if_pos h]
  exact ⟨_, rfl⟩

lemma foldl_digits (digits : List Char) (n : Nat) :
    digits.foldl (fun (m : Int) c => 10 * m + ((decimalValue c).getD 0 : Nat)) n =
      (10 ^ digits.length * n + denoted digits : Nat) := by
  induction digits generalizing n with
  | nil => simp [denoted]
  | cons c digits ih =>
    have hstep : (10 * (n : Int) + ((decimalValue c).getD 0 : Nat)) =
        ((10 * n + (decimalValue c).getD 0 : Nat) : Int) := by
      push_cast
      ring
    have hdenoted : denoted (c :: digits) =
        denoted digits + 10 ^ digits.length * (decimalValue c).getD 0 := by
      unfold denoted
      rw [List.reverse_cons, List.map_append, Nat.ofDigits_append]
      simp
    rw [List.foldl_cons, hstep, ih, hdenoted]
    congr 1
    rw [List.length_cons, pow_succ]
    ring

lemma intOfDigits_short {digits : List Char} (h : digits.length ≤ maxStrDigits) :
    intOfDigits digits = .ok (denoted digits : Int) := by
  have hfold := foldl_digits digits 0
  rw [Nat.mul_zero, Nat.zero_add] at hfold
  unfold intOfDigits raiseIf
  rw [if_neg (Nat.not_lt.mpr h), ← hfold]
  rfl

/-- The counter of an id is computed and below a bound exactly when its digits are so. -/
theorem counterBelow_iff {bound : Nat} (hbound : 0 < bound) (id : String) :
    (∃ n : Nat, objectSeq id = .ok (n : Int) ∧ n < bound) ↔ CounterBelow bound id := by
  unfold objectSeq
  cases hdigits : objectSeqDigits id.toList with
  | none =>
    refine iff_of_true ⟨0, rfl, hbound⟩ ?_
    intro digits hends
    rw [objectSeqDigits_iff.mpr hends] at hdigits
    cases hdigits
  | some digits =>
    have hends := objectSeqDigits_iff.mp hdigits
    have hunique : CounterBelow bound id ↔
        digits.length ≤ maxStrDigits ∧ denoted digits < bound := by
      refine ⟨fun h => h digits hends, fun h digits' hends' => ?_⟩
      rw [objectSeqDigits_iff.mpr hends'] at hdigits
      rw [Option.some.inj hdigits]
      exact h
    rw [hunique]
    simp only
    by_cases hlength : digits.length ≤ maxStrDigits
    · rw [intOfDigits_short hlength]
      simp [hlength]
    · obtain ⟨e, he⟩ := intOfDigits_long (Nat.not_le.mp hlength)
      rw [he]
      simp [hlength]

lemma objectSeq_natural {id : String} {n : Int} (h : objectSeq id = .ok n) : ∃ k : Nat, n = k := by
  unfold objectSeq at h
  split at h
  · exact ⟨0, (Except.ok.inj h).symm⟩
  · next digits _ =>
    by_cases hlength : digits.length ≤ maxStrDigits
    · rw [intOfDigits_short hlength] at h
      exact ⟨_, (Except.ok.inj h).symm⟩
    · obtain ⟨e, he⟩ := intOfDigits_long (Nat.not_le.mp hlength)
      rw [he] at h
      cases h

theorem counter_iff (id : String) :
    (∃ n, objectSeq id = .ok n ∧ fitsInt n) ↔ CounterFits id := by
  unfold CounterFits
  rw [← counterBelow_iff (by decide)]
  constructor
  · rintro ⟨n, hn, hfits⟩
    obtain ⟨k, rfl⟩ := objectSeq_natural hn
    have hrange := (fitsInt_iff.mp hfits).2
    exact ⟨k, hn, by omega⟩
  · rintro ⟨k, hk, hlt⟩
    exact ⟨k, hk, fitsInt_iff.mpr ⟨by omega, by omega⟩⟩

/-- The database takes the counters that take no more than 64 bits. -/
theorem counterTaken_iff (id : String) :
    (∃ n seq, objectSeq id = .ok n ∧ storedInt n = some seq) ↔ CounterTaken id := by
  unfold CounterTaken
  rw [← counterBelow_iff (by decide)]
  constructor
  · rintro ⟨n, seq, hn, hseq⟩
    obtain ⟨k, rfl⟩ := objectSeq_natural hn
    have hrange := (storedInt_ok.mp ⟨seq, hseq⟩).2
    exact ⟨k, hn, by omega⟩
  · rintro ⟨k, hk, hlt⟩
    obtain ⟨seq, hseq⟩ := storedInt_ok.mpr (show -2 ^ 64 ≤ (k : Int) ∧ (k : Int) < 2 ^ 64 by omega)
    exact ⟨k, seq, hk, hseq⟩

lemma CounterFits.taken {id : String} (h : CounterFits id) : CounterTaken id := by
  intro digits hends
  obtain ⟨hlength, hlt⟩ := h digits hends
  exact ⟨hlength, by omega⟩

/-! ### Rows and the counters of their ids -/

variable {F X : Type} [Json.ScalarText F] {env : Env F X} {sdk : Sdk} {i : Nat}
  {g : String × String} {store : GraphStore} {t : Tables} {db : Database}

/-- The row of an id holds the counter of the id. -/
def HoldsCounter (t : Tables) (vertex : RecordId .agVertex) (id : String) : Prop :=
  ∃ n row, objectSeq id = .ok n ∧ t.vertex.lookup vertex.key = some row ∧ row.objectSeq = some n

/-- A row that holds what the field makes of the counter holds the counter exactly when the
counter is in range. -/
lemma holdsCounter_iff {vertex : RecordId .agVertex} {id : String} {n seq : Int} {row : VertexRow}
    (hn : objectSeq id = .ok n) (hseq : storedInt n = some seq)
    (hlookup : t.vertex.lookup vertex.key = some row) (hrow : row.objectSeq = some seq) :
    HoldsCounter t vertex id ↔ CounterFits id := by
  rw [← counter_iff]
  constructor
  · rintro ⟨n', row', hn', hlookup', hrow'⟩
    obtain rfl := Except.ok.inj (hn.symm.trans hn')
    obtain rfl := Option.some.inj (hlookup.symm.trans hlookup')
    obtain rfl := Option.some.inj (hrow.symm.trans hrow')
    exact ⟨seq, hn, storedInt_eq_self.mp hseq⟩
  · rintro ⟨n', hn', hfits⟩
    obtain rfl := Except.ok.inj (hn.symm.trans hn')
    rw [storedInt_of_fits hfits] at hseq
    obtain rfl := Option.some.inj hseq
    exact ⟨n, row, hn, hlookup, hrow⟩

lemma holdsCounter_congr {t t' : Tables} {vertex : RecordId .agVertex}
    (h : t.vertex.lookup vertex.key = t'.vertex.lookup vertex.key) (id : String) :
    HoldsCounter t vertex id ↔ HoldsCounter t' vertex id := by
  unfold HoldsCounter
  rw [h]

lemma lookup_written (t : Tables) (key k : String) (row : VertexRow) :
    ((engine sdk).applyAll [.vertex key (some row)] t).vertex.lookup k =
      if k = key then some row else t.vertex.lookup k := Records.lookup_write ..

namespace GraphStore

lemma stub_iff_counterTaken {vertex : RecordId .agVertex} {id : String} :
    (∃ ws, store.stub sdk vertex id = .ok ws) ↔ CounterTaken id := by
  rw [← counterTaken_iff]
  constructor
  · rintro ⟨ws, hstub⟩
    obtain ⟨n, seq, hn, hseq, -⟩ := stub_iff.mp hstub
    exact ⟨n, seq, hn, hseq⟩
  · rintro ⟨n, seq, hn, hseq⟩
    exact ⟨_, stub_iff.mpr ⟨n, seq, hn, hseq, rfl⟩⟩

lemma endpointPlan_iff_counterTaken {vertex : RecordId .agVertex} {id : String} :
    (∃ ws, store.endpointPlan sdk t vertex id = .ok ws) ↔
      (t.vertex.lookup vertex.key = none → CounterTaken id) := by
  have hstub : (∃ ws, store.stub sdk vertex id = .ok ws) ↔ CounterTaken id := stub_iff_counterTaken
  rw [← hstub]
  simp only [endpointPlan_iff]
  by_cases hnone : t.vertex.lookup vertex.key = none
  · simp [hnone]
  · simp [hnone]

lemma putObjectPlan_iff_counterTaken {obj : Object F X} {record : ObjectRecord} {version : Int}
    {vertex : RecordId .agVertex} (hrecord : objectToRecord env obj = .ok record)
    (hversion : storedInt obj.version = some version)
    (hkey : vertexKey env store.address obj.id = .ok vertex) :
    (∃ ws, store.putObjectPlan env sdk obj = .ok ws) ↔ CounterTaken obj.id := by
  rw [← counterTaken_iff]
  simp only [putObjectPlan_iff]
  constructor
  · rintro ⟨ws, n, seq, _, _, _, hn, hseq, -⟩
    exact ⟨n, seq, hn, hseq⟩
  · rintro ⟨n, seq, hn, hseq⟩
    have hstored : objectToRecord env { obj with version } = .ok { record with version } := by
      rw [objectToRecord_with, hrecord]
      rfl
    exact ⟨_, n, seq, version, _, vertex, hn, hseq, hversion, hstored, hkey, rfl⟩

/-- A method that carries out a plan returns exactly when there is one. -/
lemma returns_iff {m : Py GraphStore Unit} {plan : Except PyErr (List Write)}
    (h : Does sdk i m store db plan) :
    (alone sdk i m store db).1.1 = .ok () ↔ ∃ ws, plan = .ok ws := by
  rw [h.answer]
  cases plan with
  | error e => simp [Except.map]
  | ok ws => simp [Except.map]

lemma tables_of_plan {m : Py GraphStore Unit} {plan : Except PyErr (List Write)} {ws : List Write}
    (h : Does sdk i m store db plan) (hplan : plan = .ok ws) :
    (alone sdk i m store db).2.tables = (engine sdk).applyAll ws db.tables := by
  rw [h.tables, hplan]
  rfl

/-- The row that a stub writes. -/
lemma stub_holds {vertex : RecordId .agVertex} {id : String} {ws : List Write}
    (hstub : store.stub sdk vertex id = .ok ws) :
    HoldsCounter ((engine sdk).applyAll ws t) vertex id ↔ CounterFits id := by
  obtain ⟨n, seq, hn, hseq, rfl⟩ := stub_iff.mp hstub
  have hlookup : ((engine sdk).applyAll [.vertex vertex.key (some (store.placeholderRow id seq))]
      t).vertex.lookup vertex.key = some (store.placeholderRow id seq) := by
    rw [lookup_written, if_pos rfl]
  exact holdsCounter_iff hn hseq hlookup rfl

/-- The plan of an endpoint overwrites no row. -/
lemma lookup_endpoint {vertex : RecordId .agVertex} {id : String} {ws : List Write}
    (hplan : store.endpointPlan sdk t vertex id = .ok ws) {k : String} {row : VertexRow}
    (hrow : t.vertex.lookup k = some row) :
    ((engine sdk).applyAll ws t).vertex.lookup k = some row := by
  rcases endpointPlan_iff.mp hplan with ⟨-, rfl⟩ | ⟨hnone, hstub⟩
  · exact hrow
  · obtain ⟨n, seq, -, -, rfl⟩ := stub_iff.mp hstub
    have hne : k ≠ vertex.key := by
      rintro rfl
      rw [hnone] at hrow
      cases hrow
    rw [lookup_written, if_neg hne, hrow]

/-- The row that an endpoint gets, also when it is the other one as well. -/
lemma endpoint_holds {vertex : RecordId .agVertex} {id : String} {ws : List Write}
    (hplan : store.endpointPlan sdk t vertex id = .ok ws)
    (hnone : t.vertex.lookup vertex.key = none) :
    (∃ row, ((engine sdk).applyAll ws t).vertex.lookup vertex.key = some row) ∧
      (HoldsCounter ((engine sdk).applyAll ws t) vertex id ↔ CounterFits id) := by
  rcases endpointPlan_iff.mp hplan with ⟨hsome, -⟩ | ⟨-, hstub⟩
  · exact absurd hnone hsome
  · refine ⟨?_, stub_holds hstub⟩
    obtain ⟨n, seq, -, -, rfl⟩ := stub_iff.mp hstub
    exact ⟨_, by rw [lookup_written, if_pos rfl]⟩

/-- A first endpoint that has been given a row is the second one or leaves it as it was. -/
lemma lookup_second (hsha : CollisionFree env) {source target : String}
    {first second : RecordId .agVertex} {ws : List Write}
    (hfirst : vertexKey env g source = .ok first) (hsecond : vertexKey env g target = .ok second)
    (hplan : store.endpointPlan sdk t first source = .ok ws) :
    ((engine sdk).applyAll ws t).vertex.lookup second.key = t.vertex.lookup second.key ∨
      first = second ∧ source = target ∧ t.vertex.lookup first.key = none := by
  rcases endpointPlan_iff.mp hplan with ⟨-, rfl⟩ | ⟨hnone, hstub⟩
  · exact .inl rfl
  · obtain ⟨n, seq, -, -, rfl⟩ := stub_iff.mp hstub
    by_cases hsame : second.key = first.key
    · have hkeys : first = second := by
        cases second
        cases first
        exact congrArg RecordId.mk hsame.symm
      rw [hkeys] at hfirst
      exact .inr ⟨hkeys, List.singleton_inj.mp (key_address hsha hfirst hsecond).2, hnone⟩
    · left
      rw [lookup_written, if_neg hsame]

lemma endpointPlan_second (hsha : CollisionFree env) {source target : String}
    {first second : RecordId .agVertex} {ws : List Write}
    (hfirst : vertexKey env g source = .ok first) (hsecond : vertexKey env g target = .ok second)
    (hplan : store.endpointPlan sdk t first source = .ok ws) :
    (∃ ws', store.endpointPlan sdk ((engine sdk).applyAll ws t) second target = .ok ws') ↔
      (t.vertex.lookup second.key = none → CounterTaken target) := by
  rw [endpointPlan_iff_counterTaken]
  rcases lookup_second hsha hfirst hsecond hplan with hsame | ⟨rfl, rfl, hnone⟩
  · rw [hsame]
  · have htaken := endpointPlan_iff_counterTaken.mp ⟨ws, hplan⟩ hnone
    exact iff_of_true (fun _ => htaken) fun _ => htaken

/-- What the endpoints of a relation hold that had no rows. -/
lemma endpoints_hold (hsha : CollisionFree env) {source target : String}
    {first second : RecordId .agVertex} {ws ws' : List Write}
    (hfirst : vertexKey env g source = .ok first) (hsecond : vertexKey env g target = .ok second)
    (hplan : store.endpointPlan sdk t first source = .ok ws)
    (hplan' : store.endpointPlan sdk ((engine sdk).applyAll ws t) second target = .ok ws') :
    (t.vertex.lookup first.key = none →
      (HoldsCounter ((engine sdk).applyAll ws' ((engine sdk).applyAll ws t)) first source ↔
        CounterFits source)) ∧
    (t.vertex.lookup second.key = none →
      (HoldsCounter ((engine sdk).applyAll ws' ((engine sdk).applyAll ws t)) second target ↔
        CounterFits target)) := by
  have hsource : t.vertex.lookup first.key = none →
      (HoldsCounter ((engine sdk).applyAll ws' ((engine sdk).applyAll ws t)) first source ↔
        CounterFits source) := by
    intro hnone
    obtain ⟨⟨row, hrow⟩, hholds⟩ := endpoint_holds hplan hnone
    rw [← hholds]
    exact holdsCounter_congr ((lookup_endpoint hplan' hrow).trans hrow.symm) source
  refine ⟨hsource, fun hnone => ?_⟩
  rcases lookup_second hsha hfirst hsecond hplan with hsame | ⟨rfl, rfl, -⟩
  · exact (endpoint_holds hplan' (hsame.trans hnone)).2
  · exact hsource hnone

section calls

variable (hsha : CollisionFree env) (ht : Sound env db.tables)
  (h : store.Readable env g db.tables)

include hsha ht h

variable (sdk i) in
lemma putObject_returns_iff {obj : Object F X} {record : ObjectRecord} {version : Int}
    {vertex : RecordId .agVertex} (hrecord : objectToRecord env obj = .ok record)
    (hversion : storedInt obj.version = some version)
    (hkey : vertexKey env g obj.id = .ok vertex) :
    (alone sdk i (putObject env obj) store db).1.1 = .ok () ↔ CounterTaken obj.id := by
  rw [returns_iff (does_putObject hsha ht.toPlaced h obj)]
  exact putObjectPlan_iff_counterTaken hrecord hversion (h.address ▸ hkey)

lemma putObject_holds {obj : Object F X} {vertex : RecordId .agVertex}
    (hkey : vertexKey env g obj.id = .ok vertex)
    (hok : (alone sdk i (putObject env obj) store db).1.1 = .ok ()) :
    HoldsCounter (alone sdk i (putObject env obj) store db).2.tables vertex obj.id ↔
      CounterFits obj.id := by
  have hdoes : Does sdk i (putObject env obj) store db _ := does_putObject hsha ht.toPlaced h obj
  obtain ⟨ws, hplan⟩ := (returns_iff hdoes).mp hok
  rw [tables_of_plan hdoes hplan]
  obtain ⟨n, seq, _, record, vertex', hn, hseq, -, -, hkey', rfl⟩ := putObjectPlan_iff.mp hplan
  rw [h.address, hkey] at hkey'
  obtain rfl := Except.ok.inj hkey'
  have hlookup : ((engine sdk).applyAll [.vertex vertex.key (some (store.objectContent seq record))]
      db.tables).vertex.lookup vertex.key = some (store.objectContent seq record) := by
    rw [lookup_written, if_pos rfl]
  exact holdsCounter_iff hn hseq hlookup rfl

variable (sdk i) in
lemma removeObject_returns_iff {id : String} {vertex : RecordId .agVertex}
    (hkey : vertexKey env g id = .ok vertex) :
    (alone sdk i (removeObject env id) store db).1.1 = .ok () ↔
      (db.tables.vertex.lookup vertex.key ≠ none → CounterTaken id) := by
  have hstub : (∃ ws, store.stub sdk vertex id = .ok ws) ↔ CounterTaken id :=
    stub_iff_counterTaken
  rw [returns_iff (does_removeObject hsha ht.toPlaced h id), ← hstub]
  simp only [removeObjectPlan_iff, h.address, hkey, Except.ok.injEq, exists_eq_left']
  by_cases hnone : db.tables.vertex.lookup vertex.key = none
  · simp [hnone]
  · simp [hnone]

lemma removeObject_holds {id : String} {vertex : RecordId .agVertex}
    (hkey : vertexKey env g id = .ok vertex)
    (hok : (alone sdk i (removeObject env id) store db).1.1 = .ok ())
    (hsome : db.tables.vertex.lookup vertex.key ≠ none) :
    HoldsCounter (alone sdk i (removeObject env id) store db).2.tables vertex id ↔
      CounterFits id := by
  have hdoes : Does sdk i (removeObject env id) store db _ := does_removeObject hsha ht.toPlaced h id
  obtain ⟨ws, hplan⟩ := (returns_iff hdoes).mp hok
  rw [tables_of_plan hdoes hplan]
  obtain ⟨vertex', hkey', hrow⟩ := removeObjectPlan_iff.mp hplan
  rw [h.address, hkey] at hkey'
  obtain rfl := Except.ok.inj hkey'
  rcases hrow with ⟨hnone, -⟩ | ⟨-, hstub⟩
  · exact absurd hnone hsome
  · exact stub_holds hstub

variable (sdk i) in
lemma putRelation_returns_iff {rel : Relation F X} {record : RelationRecord}
    {source target : RecordId .agVertex} {relation : RecordId .agRelation}
    (hrecord : relationToRecord env rel = .ok record)
    (hsource : vertexKey env g rel.source = .ok source)
    (htarget : vertexKey env g rel.target = .ok target)
    (hrelation : relationKey env g rel.id = .ok relation) :
    (alone sdk i (putRelation env rel) store db).1.1 = .ok () ↔
      (db.tables.vertex.lookup source.key = none → CounterTaken rel.source) ∧
      (db.tables.vertex.lookup target.key = none → CounterTaken rel.target) := by
  rw [returns_iff (does_putRelation hsha ht.toPlaced h rel)]
  simp only [putRelationPlan_iff, h.address, hsource, htarget, hrelation, Except.ok.injEq,
    transactionPlan_iff]
  constructor
  · rintro ⟨_, _, _, _, rfl, rfl, rfl, ws, ws', _, hfirst, hsecond, -, -⟩
    exact ⟨endpointPlan_iff_counterTaken.mp ⟨ws, hfirst⟩,
      (endpointPlan_second hsha hsource htarget hfirst).mp ⟨ws', hsecond⟩⟩
  · rintro ⟨htakenSource, htakenTarget⟩
    obtain ⟨ws, hfirst⟩ := endpointPlan_iff_counterTaken.mpr htakenSource
    obtain ⟨ws', hsecond⟩ := (endpointPlan_second hsha hsource htarget hfirst).mpr htakenTarget
    exact ⟨_, source, target, relation, rfl, rfl, rfl, ws, ws', record, hfirst, hsecond, hrecord,
      rfl⟩

lemma putRelation_holds {rel : Relation F X} {source target : RecordId .agVertex}
    (hsource : vertexKey env g rel.source = .ok source)
    (htarget : vertexKey env g rel.target = .ok target)
    (hok : (alone sdk i (putRelation env rel) store db).1.1 = .ok ()) :
    (db.tables.vertex.lookup source.key = none →
      (HoldsCounter (alone sdk i (putRelation env rel) store db).2.tables source rel.source ↔
        CounterFits rel.source)) ∧
    (db.tables.vertex.lookup target.key = none →
      (HoldsCounter (alone sdk i (putRelation env rel) store db).2.tables target rel.target ↔
        CounterFits rel.target)) := by
  have hdoes : Does sdk i (putRelation env rel) store db _ := does_putRelation hsha ht.toPlaced h rel
  obtain ⟨ws, hplan⟩ := (returns_iff hdoes).mp hok
  rw [tables_of_plan hdoes hplan]
  obtain ⟨source', target', relation, hsource', htarget', -, hplan⟩ := putRelationPlan_iff.mp hplan
  rw [h.address, hsource] at hsource'
  rw [h.address, htarget] at htarget'
  obtain rfl := Except.ok.inj hsource'
  obtain rfl := Except.ok.inj htarget'
  obtain ⟨first, second, record, hfirst, hsecond, -, rfl⟩ := transactionPlan_iff.mp hplan
  rw [Engine.applyAll_append, Engine.applyAll_append]
  exact endpoints_hold hsha hsource htarget hfirst hsecond

end calls

/-- What fits is taken, so that a call that keeps what fits returns. -/
lemma kept_iff {returns taken holds fits : Prop} (hreturns : returns ↔ taken)
    (hholds : returns → (holds ↔ fits)) (htaken : fits → taken) : returns ∧ holds ↔ fits := by
  constructor
  · rintro ⟨hok, hkept⟩
    exact (hholds hok).mp hkept
  · intro hfits
    have hok := hreturns.mpr (htaken hfits)
    exact ⟨hok, (hholds hok).mpr hfits⟩

/-- A mutation of a ready projection returns exactly when the digits at the end of each id
whose counter it stores are not too many for `int` and denote a number of at most 64 bits. It
stores the counters themselves exactly when these are also in the range of the field. -/
theorem counter_fails_iff (hsha : CollisionFree env) (ht : Sound env db.tables)
    (h : store.Readable env g db.tables) :
    (∀ id, (∃ n, objectSeq id = .ok n ∧ fitsInt n) ↔ CounterFits id) ∧
    (∀ (obj : Object F X) record version vertex, objectToRecord env obj = .ok record →
      storedInt obj.version = some version → vertexKey env g obj.id = .ok vertex →
      ((alone sdk i (putObject env obj) store db).1.1 = .ok () ↔ CounterTaken obj.id) ∧
      ((alone sdk i (putObject env obj) store db).1.1 = .ok () ∧
          HoldsCounter (alone sdk i (putObject env obj) store db).2.tables vertex obj.id ↔
        CounterFits obj.id)) ∧
    (∀ id vertex, vertexKey env g id = .ok vertex →
      ((alone sdk i (removeObject env id) store db).1.1 = .ok () ↔
        (db.tables.vertex.lookup vertex.key ≠ none → CounterTaken id)) ∧
      ((alone sdk i (removeObject env id) store db).1.1 = .ok () ∧
          (db.tables.vertex.lookup vertex.key ≠ none →
            HoldsCounter (alone sdk i (removeObject env id) store db).2.tables vertex id) ↔
        (db.tables.vertex.lookup vertex.key ≠ none → CounterFits id))) ∧
    ∀ (rel : Relation F X) record source target relation, relationToRecord env rel = .ok record →
      vertexKey env g rel.source = .ok source → vertexKey env g rel.target = .ok target →
      relationKey env g rel.id = .ok relation →
      ((alone sdk i (putRelation env rel) store db).1.1 = .ok () ↔
        (db.tables.vertex.lookup source.key = none → CounterTaken rel.source) ∧
        (db.tables.vertex.lookup target.key = none → CounterTaken rel.target)) ∧
      ((alone sdk i (putRelation env rel) store db).1.1 = .ok () ∧
          (db.tables.vertex.lookup source.key = none →
            HoldsCounter (alone sdk i (putRelation env rel) store db).2.tables source rel.source) ∧
          (db.tables.vertex.lookup target.key = none →
            HoldsCounter (alone sdk i (putRelation env rel) store db).2.tables target rel.target) ↔
        (db.tables.vertex.lookup source.key = none → CounterFits rel.source) ∧
        (db.tables.vertex.lookup target.key = none → CounterFits rel.target)) := by
  refine ⟨counter_iff, ?_, ?_, ?_⟩
  · intro obj record version vertex hrecord hversion hkey
    have hreturns := putObject_returns_iff sdk i hsha ht h hrecord hversion hkey
    exact ⟨hreturns, kept_iff hreturns (putObject_holds hsha ht h hkey) CounterFits.taken⟩
  · intro id vertex hkey
    have hreturns := removeObject_returns_iff sdk i hsha ht h hkey
    refine ⟨hreturns, kept_iff hreturns (fun hok => ?_) fun hfits hsome => (hfits hsome).taken⟩
    exact imp_congr_right (removeObject_holds hsha ht h hkey hok)
  · intro rel record source target relation hrecord hsource htarget hrelation
    have hreturns :=
      putRelation_returns_iff sdk i hsha ht h hrecord hsource htarget hrelation
    refine ⟨hreturns, kept_iff hreturns (fun hok => ?_) ?_⟩
    · obtain ⟨hheld, hheld'⟩ := putRelation_holds hsha ht h hsource htarget hok
      exact and_congr (imp_congr_right hheld) (imp_congr_right hheld')
    · rintro ⟨hfits, hfits'⟩
      exact ⟨fun hnone => (hfits hnone).taken, fun hnone => (hfits' hnone).taken⟩

end GraphStore

/-! ### Ids beyond the range -/

def numberedObject (id : String) : Object Unit Empty := ⟨id, "task", .obj [], 1, .obj []⟩

def numberedVertex (id : String) : RecordId .agVertex := ⟨referenceVertex id⟩

/-- The outcome of a put of an object with this id, and the tables after it. -/
def putNumbered (id : String) : Except PyErr Unit × Tables :=
  let run := alone referenceSdk 0 (GraphStore.putObject (reference Unit) (numberedObject id))
    (referenceGraph ("s", "r")) parallelDatabase
  (run.1.1, run.2.tables)

theorem counter_fails_iff_parallel :
    ((putNumbered "task#7").1 = .ok () ↔ CounterTaken "task#7") ∧
    ((putNumbered "task#7").1 = .ok () ∧
      HoldsCounter (putNumbered "task#7").2 (numberedVertex "task#7") "task#7" ↔
        CounterFits "task#7") :=
  (GraphStore.counter_fails_iff reference_collisionFree sound_parallel readable_parallel).2.1
    (numberedObject "task#7") ⟨"task#7", "task", "{}", 1, "{}"⟩ 1 (numberedVertex "task#7") rfl
    (storedInt_of_fits (by decide)) rfl

/-- The first counter out of range is stored as a negative one, and the first that takes more
than 64 bits is refused. -/
theorem counter_beyond_range :
    objectSeq "task#9223372036854775808" = .ok (2 ^ 63) ∧ fitsInt (2 ^ 63) = false ∧
    (putNumbered "task#9223372036854775808").1 = .ok () ∧
    (∃ row, (putNumbered "task#9223372036854775808").2.vertex.lookup
        (numberedVertex "task#9223372036854775808").key = some row ∧
      row.objectSeq = some (-2 ^ 63)) ∧
    objectSeq "task#18446744073709551616" = .ok (2 ^ 64) ∧
    (putNumbered "task#18446744073709551616").1 =
      .error (referenceSdk.error (.badValue "object_seq")) := by
  have hplan : (referenceGraph ("s", "r")).putObjectPlan (reference Unit) referenceSdk
      (numberedObject "task#9223372036854775808") = .ok [.vertex
        (numberedVertex "task#9223372036854775808").key (some ((referenceGraph ("s", "r")).objectContent
          (-2 ^ 63) ⟨"task#9223372036854775808", "task", "{}", 1, "{}"⟩))] :=
    GraphStore.putObjectPlan_iff.mpr ⟨2 ^ 63, -2 ^ 63, 1, _, _, by decide, by decide, by decide,
      rfl, rfl, rfl⟩
  have hdoes : Does referenceSdk 0 (GraphStore.putObject (reference Unit)
      (numberedObject "task#9223372036854775808")) (referenceGraph ("s", "r")) parallelDatabase _ :=
    GraphStore.does_putObject reference_collisionFree sound_parallel.toPlaced readable_parallel _
  refine ⟨by decide, by decide, ?_, ?_, by decide, ?_⟩
  · exact (GraphStore.returns_iff hdoes).mpr ⟨_, hplan⟩
  · unfold putNumbered
    simp only
    rw [GraphStore.tables_of_plan hdoes hplan, lookup_written, if_pos rfl]
    exact ⟨_, rfl, rfl⟩
  · unfold putNumbered
    simp only
    rw [(GraphStore.does_putObject reference_collisionFree sound_parallel.toPlaced
      readable_parallel _).answer]
    rfl

end ActiveGraphSurreal
