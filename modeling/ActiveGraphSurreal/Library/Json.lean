import Mathlib.Data.List.Sort
import Mathlib.Data.String.Basic
import Mathlib.Data.List.Infix

/-!
# JSON data and their canonical text

`Json S` is JSON-shaped data over a type `S` of further scalars: the floating-point
numbers of a text, or also foreign values on the way into an encoder. An object is an
association list in insertion order. `canon` sorts the members of every object by key,
and `render` writes the compact text without whitespace and without ASCII folding.
-/

namespace Library

inductive Json (S : Type) where
  | null
  | bool (b : Bool)
  | int (n : Int)
  | str (s : String)
  | scalar (x : S)
  | arr (items : List (Json S))
  | obj (members : List (String × Json S))

namespace Json

variable {S T : Type}

/-- Structural induction with the nested lists seen through membership. -/
@[induction_eliminator]
theorem ind {motive : Json S → Prop} (null : motive .null) (bool : ∀ b, motive (.bool b))
    (int : ∀ n, motive (.int n)) (str : ∀ s, motive (.str s)) (scalar : ∀ x, motive (.scalar x))
    (arr : ∀ items, (∀ x ∈ items, motive x) → motive (.arr items))
    (obj : ∀ members, (∀ m ∈ members, motive m.2) → motive (.obj members)) :
    ∀ j, motive j := by
  intro j
  refine @Json.rec S motive (fun xs => ∀ x ∈ xs, motive x)
    (fun ms => ∀ m ∈ ms, motive m.2) (fun m => motive m.2)
    null bool int str scalar arr obj ?_ ?_ ?_ ?_ ?_ j
  · simp
  · intro x xs hx hxs
    simpa using ⟨hx, hxs⟩
  · simp
  · intro m ms hm hms n hn
    rcases List.mem_cons.mp hn with rfl | hn
    · exact hm
    · exact hms n hn
  · intro k v hv
    exact hv

mutual
/-- Rewrites the scalars. -/
def map (f : S → T) : Json S → Json T
  | .null => .null
  | .bool b => .bool b
  | .int n => .int n
  | .str s => .str s
  | .scalar x => .scalar (f x)
  | .arr items => .arr (mapItems f items)
  | .obj members => .obj (mapMembers f members)
def mapItems (f : S → T) : List (Json S) → List (Json T)
  | [] => []
  | x :: xs => map f x :: mapItems f xs
def mapMembers (f : S → T) : List (String × Json S) → List (String × Json T)
  | [] => []
  | (k, v) :: ms => (k, map f v) :: mapMembers f ms
end

/-- The order of `sorted(dct.items())` on members with distinct keys. -/
def keyLE (m n : String × Json S) : Prop := m.1 ≤ n.1

instance : DecidableRel (keyLE (S := S)) := fun m n => inferInstanceAs (Decidable (m.1 ≤ n.1))

instance : Std.Total (keyLE (S := S)) := ⟨fun m n => le_total m.1 n.1⟩

instance : IsTrans (String × Json S) keyLE := ⟨fun a _ c h h' => show a.1 ≤ c.1 from le_trans h h'⟩

mutual
/-- Sorts the members of every object by key. -/
def canon : Json S → Json S
  | .null => .null
  | .bool b => .bool b
  | .int n => .int n
  | .str s => .str s
  | .scalar x => .scalar x
  | .arr items => .arr (canonItems items)
  | .obj members => .obj ((canonMembers members).insertionSort keyLE)
def canonItems : List (Json S) → List (Json S)
  | [] => []
  | x :: xs => canon x :: canonItems xs
def canonMembers : List (String × Json S) → List (String × Json S)
  | [] => []
  | (k, v) :: ms => (k, canon v) :: canonMembers ms
end

mutual
/-- No object, at any depth, has two members with one key: what a parsed text satisfies. -/
def Distinct : Json S → Prop
  | .arr items => DistinctItems items
  | .obj members => (members.map Prod.fst).Nodup ∧ DistinctMembers members
  | _ => True
def DistinctItems : List (Json S) → Prop
  | [] => True
  | x :: xs => Distinct x ∧ DistinctItems xs
def DistinctMembers : List (String × Json S) → Prop
  | [] => True
  | (_, v) :: ms => Distinct v ∧ DistinctMembers ms
end

lemma canonItems_eq (items : List (Json S)) : canonItems items = items.map canon := by
  induction items with
  | nil => rfl
  | cons x xs ih => rw [canonItems, ih, List.map_cons]

lemma canonMembers_eq (members : List (String × Json S)) :
    canonMembers members = members.map (Prod.map id canon) := by
  induction members with
  | nil => rfl
  | cons m ms ih => rw [canonMembers, ih, List.map_cons]; rfl

lemma distinctItems_iff (items : List (Json S)) :
    DistinctItems items ↔ ∀ x ∈ items, Distinct x := by
  induction items with
  | nil => simp [DistinctItems]
  | cons x xs ih => simp [DistinctItems, ih]

lemma distinctMembers_iff (members : List (String × Json S)) :
    DistinctMembers members ↔ ∀ m ∈ members, Distinct m.2 := by
  induction members with
  | nil => simp [DistinctMembers]
  | cons m ms ih => simp [DistinctMembers, ih]

lemma canon_arr (items : List (Json S)) : canon (.arr items) = .arr (items.map canon) := by
  rw [canon, canonItems_eq]

lemma canon_obj (members : List (String × Json S)) :
    canon (.obj members) = .obj ((members.map (Prod.map id canon)).insertionSort keyLE) := by
  rw [canon, canonMembers_eq]

lemma canon_obj_congr {ms ns : List (String × Json S)}
    (h : ms.map (Prod.map id canon) = ns.map (Prod.map id canon)) :
    canon (.obj ms) = canon (.obj ns) := by
  rw [canon_obj, canon_obj, h]

lemma distinct_arr (items : List (Json S)) : Distinct (.arr items) ↔ ∀ x ∈ items, Distinct x := by
  rw [Distinct, distinctItems_iff]

lemma distinct_obj (members : List (String × Json S)) :
    Distinct (.obj members) ↔
      (members.map Prod.fst).Nodup ∧ ∀ m ∈ members, Distinct m.2 := by
  rw [Distinct, distinctMembers_iff]

mutual
instance decidableDistinct : (j : Json S) → Decidable j.Distinct
  | .arr items => decidableDistinctItems items
  | .obj members =>
    have := decidableDistinctMembers members
    inferInstanceAs (Decidable (_ ∧ DistinctMembers members))
  | .null | .bool _ | .int _ | .str _ | .scalar _ => isTrue trivial
instance decidableDistinctItems : (items : List (Json S)) → Decidable (DistinctItems items)
  | [] => isTrue trivial
  | x :: xs =>
    have := decidableDistinct x
    have := decidableDistinctItems xs
    inferInstanceAs (Decidable (x.Distinct ∧ DistinctItems xs))
instance decidableDistinctMembers :
    (members : List (String × Json S)) → Decidable (DistinctMembers members)
  | [] => isTrue trivial
  | (_, v) :: ms =>
    have := decidableDistinct v
    have := decidableDistinctMembers ms
    inferInstanceAs (Decidable (v.Distinct ∧ DistinctMembers ms))
end

/-- Rewriting the values of members does not disturb the order by key. -/
lemma map_insertionSort_keyLE (f : Json S → Json T) (members : List (String × Json S)) :
    (members.insertionSort keyLE).map (Prod.map id f) =
      (members.map (Prod.map id f)).insertionSort keyLE := by
  apply List.map_insertionSort
  intro m _ n _
  exact Iff.rfl

@[simp] theorem canon_canon (j : Json S) : canon (canon j) = canon j := by
  induction j with
  | arr items ih =>
    rw [canon_arr, canon_arr, List.map_map]
    congr 1
    exact List.map_congr_left ih
  | obj members ih =>
    rw [canon_obj, canon_obj, map_insertionSort_keyLE,
      (List.pairwise_insertionSort keyLE _).insertionSort_eq, List.map_map]
    congr 2
    apply List.map_congr_left
    intro m hm
    exact Prod.ext rfl (ih m hm)
  | _ => rfl

theorem distinct_canon (j : Json S) : Distinct (canon j) ↔ Distinct j := by
  induction j with
  | arr items ih =>
    rw [canon_arr, distinct_arr, distinct_arr]
    simp only [List.forall_mem_map]
    exact forall₂_congr ih
  | obj members ih =>
    have hperm := List.perm_insertionSort keyLE (members.map (Prod.map id (canon (S := S))))
    rw [canon_obj, distinct_obj, distinct_obj, (hperm.map Prod.fst).nodup_iff]
    simp only [hperm.mem_iff, List.map_map, List.forall_mem_map]
    exact and_congr (by simp [Function.comp_def]) (forall₂_congr ih)
  | _ => rfl

lemma mapItems_eq (f : S → T) (items : List (Json S)) : mapItems f items = items.map (map f) := by
  induction items with
  | nil => rfl
  | cons x xs ih => rw [mapItems, ih, List.map_cons]

lemma mapMembers_eq (f : S → T) (members : List (String × Json S)) :
    mapMembers f members = members.map (Prod.map id (map f)) := by
  induction members with
  | nil => rfl
  | cons m ms ih => rw [mapMembers, ih, List.map_cons]; rfl

theorem canon_map (f : S → T) (j : Json S) : canon (map f j) = map f (canon j) := by
  induction j with
  | arr items ih =>
    rw [map, mapItems_eq, canon_arr, canon_arr, map, mapItems_eq, List.map_map, List.map_map]
    congr 1
    exact List.map_congr_left ih
  | obj members ih =>
    rw [map, mapMembers_eq, canon_obj, canon_obj, map, mapMembers_eq, map_insertionSort_keyLE,
      List.map_map, List.map_map]
    congr 2
    apply List.map_congr_left
    intro m hm
    exact Prod.ext rfl (ih m hm)
  | _ => rfl

lemma map_map_of_leftInverse {f : S → T} {f' : T → S} (h : Function.LeftInverse f' f) (j : Json S) :
    map f' (map f j) = j := by
  induction j with
  | scalar x =>
    rw [map, map, h x]
  | arr items ih =>
    rw [map, mapItems_eq, map, mapItems_eq, List.map_map]
    have hitems : ∀ x ∈ items, (map f' ∘ map f) x = id x := ih
    rw [List.map_congr_left hitems, List.map_id]
  | obj members ih =>
    rw [map, mapMembers_eq, map, mapMembers_eq, List.map_map]
    have hmembers : ∀ m ∈ members, (Prod.map id (map f') ∘ Prod.map id (map f)) m = id m :=
      fun m hm => Prod.ext rfl (ih m hm)
    rw [List.map_congr_left hmembers, List.map_id]
  | _ => rfl

/-- A permutation that keeps the list of distinct keys moves nothing. -/
lemma eq_of_perm_of_keys {V : Type} {ms ns : List (String × V)} (hperm : ms.Perm ns)
    (hkeys : ms.map Prod.fst = ns.map Prod.fst) (hnodup : (ms.map Prod.fst).Nodup) : ms = ns := by
  induction ms generalizing ns with
  | nil => exact hperm.nil_eq
  | cons m ms ih =>
    cases ns with
    | nil => simp at hkeys
    | cons n ns =>
      simp only [List.map_cons, List.cons.injEq] at hkeys
      obtain ⟨hkey, hkeys⟩ := hkeys
      rw [List.map_cons, List.nodup_cons] at hnodup
      have hm : m = n := by
        rcases List.mem_cons.mp (hperm.mem_iff.mp List.mem_cons_self) with h | h
        · exact h
        · exact absurd (hkeys ▸ List.mem_map_of_mem h) hnodup.1
      subst hm
      rw [ih ((List.perm_cons m).mp hperm) hkeys hnodup.2]

/-- Objects over the same list of distinct keys are told apart by their canonical forms,
member by member. -/
theorem canon_obj_inj {ms ns : List (String × Json S)}
    (hkeys : ms.map Prod.fst = ns.map Prod.fst) (hnodup : (ms.map Prod.fst).Nodup)
    (h : canon (.obj ms) = canon (.obj ns)) :
    ms.map (Prod.map id canon) = ns.map (Prod.map id canon) := by
  rw [canon_obj, canon_obj, Json.obj.injEq] at h
  have hfst (l : List (String × Json S)) :
      (l.map (Prod.map id canon)).map Prod.fst = l.map Prod.fst := by
    simp [Function.comp_def]
  apply eq_of_perm_of_keys
  · exact ((List.perm_insertionSort keyLE _).symm.trans (List.Perm.of_eq h)).trans
      (List.perm_insertionSort keyLE _)
  · rw [hfst, hfst, hkeys]
  · rwa [hfst]

end Json

end Library
