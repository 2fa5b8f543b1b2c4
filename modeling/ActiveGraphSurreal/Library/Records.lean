import Mathlib.Data.List.AList
import Mathlib.Data.List.Sort
import Mathlib.Data.Int.Order.Basic

/-!
# Tables of records

A table maps record keys to rows. Queries go over its rows; a write puts or removes one
record.
-/

namespace Library

abbrev Records (R : Type) := AList fun _ : String => R

namespace Records

variable {R : Type}

def rows (t : Records R) : List R := t.entries.map Sigma.snd

/-- The keys of the rows that satisfy `p`. -/
def keysWhere (p : R → Bool) (t : Records R) : List String :=
  (t.entries.filter fun e => p e.2).map Sigma.fst

/-- Puts a row under a key or removes the key. -/
def write (key : String) (row : Option R) (t : Records R) : Records R :=
  match row with
  | some r => t.insert key r
  | none => t.erase key

/-- Some row under another key satisfies `p`. -/
def anyElse (key : String) (p : R → Bool) (t : Records R) : Bool :=
  t.entries.any fun e => e.1 ≠ key && p e.2

lemma lookup_write (key k : String) (row : Option R) (t : Records R) :
    (write key row t).lookup k = if k = key then row else t.lookup k := by
  cases row with
  | none =>
    by_cases hk : k = key
    · subst hk
      simp [write, AList.lookup_erase]
    · simp [write, hk, AList.lookup_erase_ne hk]
  | some r =>
    by_cases hk : k = key
    · subst hk
      simp [write, AList.lookup_insert]
    · simp [write, hk, AList.lookup_insert_ne hk]

lemma mem_rows {t : Records R} {r : R} : r ∈ rows t ↔ ∃ k, t.lookup k = some r := by
  simp only [rows, List.mem_map, Sigma.exists, exists_eq_right]
  exact exists_congr fun k => (AList.mem_lookup_iff (s := t)).symm

/-- The rows after a write: the new one and those under other keys. -/
lemma mem_rows_write {key : String} {row : Option R} {t : Records R} {r : R} :
    (∃ k, (write key row t).lookup k = some r) ↔
      row = some r ∨ ∃ k, k ≠ key ∧ t.lookup k = some r := by
  constructor
  · rintro ⟨k, hk⟩
    rw [lookup_write] at hk
    split at hk
    · exact .inl hk
    · next hne => exact .inr ⟨k, hne, hk⟩
  · rintro (rfl | ⟨k, hne, hk⟩)
    · refine ⟨key, ?_⟩
      rw [lookup_write, if_pos rfl]
    · refine ⟨k, ?_⟩
      rw [lookup_write, if_neg hne]
      exact hk

/-- A row under a new key comes first. -/
lemma rows_write {key : String} {t : Records R} (hfree : t.lookup key = none) (r : R) :
    rows (write key (some r) t) = r :: rows t := by
  have hkerase : t.entries.kerase key = t.entries :=
    List.kerase_of_notMem_keys (AList.lookup_eq_none.mp hfree)
  change (⟨key, r⟩ :: t.entries.kerase key).map Sigma.snd = r :: t.entries.map Sigma.snd
  rw [hkerase]
  rfl

lemma mem_keysWhere {p : R → Bool} {t : Records R} {k : String} :
    k ∈ keysWhere p t ↔ ∃ r, t.lookup k = some r ∧ p r := by
  simp only [keysWhere, List.mem_map, List.mem_filter, Sigma.exists, exists_and_right,
    exists_eq_right]
  exact exists_congr fun r => and_congr_left fun _ => (AList.mem_lookup_iff (s := t)).symm

lemma anyElse_iff {p : R → Bool} {t : Records R} {key : String} :
    anyElse key p t ↔ ∃ k r, k ≠ key ∧ t.lookup k = some r ∧ p r := by
  simp only [anyElse, List.any_eq_true, Sigma.exists, Bool.and_eq_true, decide_eq_true_eq, ne_eq]
  refine exists₂_congr fun k r => ?_
  have hmem : t.lookup k = some r ↔ (⟨k, r⟩ : Sigma fun _ : String => R) ∈ t.entries :=
    AList.mem_lookup_iff
  rw [hmem]
  tauto

/-- Writing a row again that is there changes no answer. -/
lemma anyElse_rewrite {key k : String} {t : Records R} {r : R} (h : t.lookup k = some r)
    (p : R → Bool) : anyElse key p (write k (some r) t) = anyElse key p t := by
  have hsame : ∀ k', (write k (some r) t).lookup k' = t.lookup k' := by
    intro k'
    rw [lookup_write]
    split
    · next heq => rw [heq, h]
    · rfl
  apply Bool.eq_iff_iff.mpr
  simp only [anyElse_iff, hsame]

/-! ### The part of a table -/

/-- The entries whose rows satisfy `p`. -/
def owned (p : R → Bool) (t : Records R) : List (Sigma fun _ : String => R) :=
  t.entries.filter fun e => p e.2

variable {p q : R → Bool} {t : Records R} {key : String}

lemma mem_owned {e : Sigma fun _ : String => R} :
    e ∈ owned p t ↔ t.lookup e.1 = some e.2 ∧ p e.2 := by
  unfold owned
  rw [List.mem_filter]
  exact and_congr_left fun _ => (AList.mem_lookup_iff (s := t)).symm

lemma nodupKeys_owned : (owned p t).NodupKeys :=
  t.nodupKeys.sublist List.filter_sublist

lemma keysWhere_eq_owned : keysWhere p t = (owned p t).map Sigma.fst := rfl

lemma rows_filter_eq_owned : (rows t).filter p = (owned p t).map Sigma.snd := by
  unfold rows owned
  rw [List.filter_map]
  rfl

/-- Where a smaller part is asked for, the part is enough. -/
lemma owned_filter (hq : ∀ r, q r → p r) :
    owned q t = (owned p t).filter fun e => q e.2 := by
  unfold owned
  rw [List.filter_filter]
  apply List.filter_congr
  intro e _
  cases he : q e.2 with
  | false => simp
  | true => simp [hq _ he]

lemma lookup_eq_owned (hp : ∀ r, t.lookup key = some r → p r) :
    t.lookup key = (owned p t).dlookup key := by
  apply Option.ext
  intro r
  have hmem : r ∈ (owned p t).dlookup key ↔ (⟨key, r⟩ : Sigma fun _ : String => R) ∈ owned p t :=
    List.mem_dlookup_iff nodupKeys_owned
  change _ ↔ r ∈ (owned p t).dlookup key
  rw [hmem, mem_owned]
  exact ⟨fun h => ⟨h, hp r h⟩, And.left⟩

lemma anyElse_eq_owned (hq : ∀ r, q r → p r) :
    anyElse key q t = (owned p t).any fun e => e.1 ≠ key && q e.2 := by
  unfold anyElse owned
  rw [List.any_filter]
  congr 1
  funext e
  cases he : q e.2 with
  | false => simp
  | true => simp [hq _ he]

lemma filter_kerase {l : List (Sigma fun _ : String => R)} (hl : l.NodupKeys)
    (f : Sigma (fun _ : String => R) → Bool) :
    (l.kerase key).filter f = (l.filter f).kerase key := by
  induction l with
  | nil => rfl
  | cons e l ih =>
    have hrest := ih (List.nodupKeys_of_nodupKeys_cons hl)
    have hnotMem : e.1 ∉ l.keys := List.notMem_keys_of_nodupKeys_cons hl
    by_cases he : key = e.1
    · rw [List.kerase_cons_eq he, List.filter_cons]
      split
      · rw [List.kerase_cons_eq he]
      · rw [List.kerase_of_notMem_keys]
        intro hmem
        rw [he] at hmem
        obtain ⟨x, hx, hxe⟩ := List.mem_map.mp hmem
        exact hnotMem (hxe ▸ List.mem_map_of_mem (List.mem_of_mem_filter hx))
    · rw [List.kerase_cons_ne he, List.filter_cons, List.filter_cons, hrest]
      split
      · rw [List.kerase_cons_ne he]
      · rfl

/-- The part after a write, from the part before it. -/
def writeOwned (p : R → Bool) (key : String) (row : Option R)
    (entries : List (Sigma fun _ : String => R)) : List (Sigma fun _ : String => R) :=
  match row with
  | some r => if p r then ⟨key, r⟩ :: entries.kerase key else entries.kerase key
  | none => entries.kerase key

lemma owned_write (row : Option R) :
    owned p (write key row t) = writeOwned p key row (owned p t) := by
  have hkerase : (t.entries.kerase key).filter (fun e => p e.2) =
      (t.entries.filter fun e => p e.2).kerase key := filter_kerase t.nodupKeys _
  cases row with
  | none => exact hkerase
  | some r =>
    change List.filter _ (⟨key, r⟩ :: t.entries.kerase key) = _
    rw [List.filter_cons, hkerase]
    rfl

/-- A write of rows of others to a key of others leaves the part as it is. -/
lemma owned_write_other {row : Option R} (hold : ∀ r, t.lookup key = some r → ¬ p r)
    (hnew : ∀ r, row = some r → ¬ p r) : owned p (write key row t) = owned p t := by
  have hkerase : (owned p t).kerase key = owned p t := by
    apply List.kerase_of_notMem_keys
    intro hmem
    obtain ⟨e, he, rfl⟩ := List.mem_map.mp hmem
    rw [mem_owned] at he
    exact hold e.2 he.1 he.2
  rw [owned_write]
  cases row with
  | none => exact hkerase
  | some r =>
    unfold writeOwned
    simp only [hnew r rfl, Bool.false_eq_true, if_false]
    exact hkerase

/-- A part with room for one key only is the row written to it. -/
lemma owned_write_only {r : R} (hkey : ∀ k r, t.lookup k = some r → p r → k = key) (hr : p r) :
    owned p (write key (some r) t) = [⟨key, r⟩] := by
  have hempty : (owned p t).kerase key = [] := by
    apply List.eq_nil_iff_forall_not_mem.mpr
    intro e he
    have hmem : e ∈ owned p t := (List.kerase_sublist _ _).subset he
    rw [mem_owned] at hmem
    have hkeys := List.notMem_keys_kerase key (nodupKeys_owned (p := p) (t := t))
    apply hkeys
    rw [← hkey e.1 e.2 hmem.1 hmem.2]
    exact List.mem_map_of_mem (f := Sigma.fst) (hkey e.1 e.2 hmem.1 hmem.2 ▸ he)
  rw [owned_write]
  unfold writeOwned
  simp only [hr, if_true, hempty]

/-! ### Removing keys -/

def eraseAll (keys : List String) (t : Records R) : Records R :=
  keys.foldl (fun t key => write key none t) t

lemma lookup_eraseAll (keys : List String) (k : String) :
    (eraseAll keys t).lookup k = if k ∈ keys then none else t.lookup k := by
  induction keys generalizing t with
  | nil => rfl
  | cons key keys ih =>
    change (eraseAll keys (write key none t)).lookup k = _
    rw [ih, lookup_write]
    by_cases hkeys : k ∈ keys
    · simp [hkeys]
    · by_cases hkey : k = key <;> simp [hkeys, hkey]

/-- Without the keys of a part the part is empty. -/
lemma owned_eraseAll_keysWhere : owned p (eraseAll (keysWhere p t) t) = [] := by
  apply List.eq_nil_iff_forall_not_mem.mpr
  intro e he
  rw [mem_owned, lookup_eraseAll] at he
  obtain ⟨hlookup, hp⟩ := he
  by_cases hkey : e.1 ∈ keysWhere p t
  · rw [if_pos hkey] at hlookup
    cases hlookup
  · rw [if_neg hkey] at hlookup
    exact hkey (mem_keysWhere.mpr ⟨e.2, hlookup, hp⟩)

/-! ### Sorted rows -/

/-- Sorting by a number recovers the list in which the numbers increase. -/
lemma insertionSort_eq {f : R → Int} {xs ys : List R} (hys : ys.Pairwise fun a b => f a < f b)
    (hperm : xs.Perm ys) : xs.insertionSort (fun a b => f a ≤ f b) = ys := by
  have hinj : ∀ a ∈ ys, ∀ b ∈ ys, f a = f b → a = b := by
    have hnodup : (ys.map f).Nodup := by
      refine List.Pairwise.map f (fun a b h => ?_) hys
      exact ne_of_lt h
    exact fun a ha b hb h => List.inj_on_of_nodup_map hnodup ha hb h
  have : Std.Total fun a b : R => f a ≤ f b := ⟨fun a b => Int.le_total (f a) (f b)⟩
  have : IsTrans R fun a b => f a ≤ f b := ⟨fun _ _ _ h h' => Int.le_trans h h'⟩
  have hsorted := (List.perm_insertionSort (fun a b => f a ≤ f b) xs).trans hperm
  refine hsorted.eq_of_pairwise (fun a b ha hb hab hba => ?_) (List.pairwise_insertionSort _ xs)
    (hys.imp Int.le_of_lt)
  exact hinj a (hsorted.mem_iff.mp ha) b hb (Int.le_antisymm hab hba)

lemma increasing_of_nodup {β : Type} [LinearOrder β] {f : R → β} {xs : List R}
    (hsorted : xs.Pairwise fun a b => f a ≤ f b) (hnodup : (xs.map f).Nodup) :
    xs.Pairwise fun a b => f a < f b := by
  rw [List.Nodup, List.pairwise_map] at hnodup
  exact hsorted.imp₂ (fun _ _ hle hne => lt_of_le_of_ne hle hne) hnodup

/-- Of two lists in which a key increases, the smaller one is a sublist of the larger one. -/
lemma sublist_of_increasing {β : Type} [LinearOrder β] {f : R → β} {xs ys : List R}
    (hxs : xs.Pairwise fun a b => f a < f b) (hys : ys.Pairwise fun a b => f a < f b)
    (h : ∀ x ∈ xs, x ∈ ys) : xs.Sublist ys := by
  have hantisymm : Std.Antisymm fun a b : R => f a < f b ∨ a = b := by
    refine ⟨?_⟩
    rintro a b (hab | hab) (hba | hba)
    · exact absurd hba hab.asymm
    · exact hba.symm
    · exact hab
    · exact hab
  have hnodup : xs.Nodup := hxs.imp fun hlt => ne_of_apply_ne f hlt.ne
  exact List.sublist_of_subperm_of_pairwise (r := fun a b => f a < f b ∨ a = b)
    (List.subperm_of_subset hnodup h) (hxs.imp .inl) (hys.imp .inl)

/-- Two lists of the same rows in which a key increases are equal. -/
lemma eq_of_increasing {β : Type} [LinearOrder β] {f : R → β} {xs ys : List R}
    (hxs : xs.Pairwise fun a b => f a < f b) (hys : ys.Pairwise fun a b => f a < f b)
    (h : ∀ x, x ∈ xs ↔ x ∈ ys) : xs = ys := by
  have hforward := sublist_of_increasing hxs hys fun x hx => (h x).mp hx
  have hbackward := sublist_of_increasing hys hxs fun y hy => (h y).mpr hy
  exact hforward.antisymm hbackward

/-- Rows that stand in a relation in their order stand in it in the order of an increasing key. -/
lemma rel_of_increasing {β : Type} [LinearOrder β] {f : R → β} {p : R → R → Prop} {xs : List R}
    (hxs : xs.Pairwise fun a b => f a < f b) (hp : xs.Pairwise p) {a b : R} (ha : a ∈ xs)
    (hb : b ∈ xs) (h : f a < f b) : p a b := by
  induction xs with
  | nil => cases ha
  | cons x xs ih =>
    rw [List.pairwise_cons] at hxs hp
    rcases List.mem_cons.mp ha with rfl | ha'
    · rcases List.mem_cons.mp hb with rfl | hb'
      · exact absurd h (lt_irrefl _)
      · exact hp.1 b hb'
    · rcases List.mem_cons.mp hb with rfl | hb'
      · exact absurd h (hxs.1 a ha').asymm
      · exact ih hxs.2 hp.2 ha' hb'

/-- When the key of a row is a function of the row, no two rows are equal. -/
lemma nodup_rows {t : Records R} {p : R → String → Prop}
    (hfun : ∀ r k k', p r k → p r k' → k = k')
    (hkey : ∀ k r, t.lookup k = some r → p r k) : (rows t).Nodup := by
  have hentries : t.entries.Nodup := t.nodupKeys.nodup
  refine hentries.map_on ?_
  rintro ⟨k, r⟩ hk ⟨k', r'⟩ hk' (rfl : r = r')
  have h := hkey k r (AList.mem_lookup_iff.mpr hk)
  have h' := hkey k' r (AList.mem_lookup_iff.mpr hk')
  rw [hfun r k k' h h']

end Records

end Library
