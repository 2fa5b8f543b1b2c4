import Mathlib.Data.List.Basic
import Mathlib.Data.List.Infix

/-!
# Hash chains

The entries of a list are linked by hashes: the hash of an entry is taken over its position,
the hash before it and the entry. If this link is injective on the entries that occur, the
last hash commits to the whole list.
-/

namespace Library

variable {α η : Type} (link : Nat → Option η → α → η)

/-- The last hash after `xs`, which start at position `n` after the hash `prev`. -/
def headFrom (n : Nat) (prev : Option η) : List α → Option η
  | [] => prev
  | x :: xs => headFrom (n + 1) (some (link n prev x)) xs

/-- The last hash of a whole chain. -/
def chainHead (xs : List α) : Option η := headFrom link 0 none xs

@[simp] lemma chainHead_nil : chainHead link [] = none := rfl

lemma headFrom_append (n : Nat) (prev : Option η) (xs ys : List α) :
    headFrom link n prev (xs ++ ys) =
      headFrom link (n + xs.length) (headFrom link n prev xs) ys := by
  induction xs generalizing n prev with
  | nil => rfl
  | cons x xs ih =>
    rw [List.cons_append, headFrom, ih, List.length_cons]
    rw [show n + 1 + xs.length = n + (xs.length + 1) by omega]
    rfl

@[simp] lemma chainHead_concat (xs : List α) (x : α) :
    chainHead link (xs ++ [x]) = some (link xs.length (chainHead link xs) x) := by
  unfold chainHead
  rw [headFrom_append, Nat.zero_add]
  rfl

/-- No two positions, previous hashes or entries in `Ok` share a link. -/
def LinkInjective (Ok : α → Prop) : Prop :=
  ∀ ⦃n p x m q y⦄, Ok x → Ok y → link n p x = link m q y → n = m ∧ p = q ∧ x = y

variable {link}

/-- Backwards along the chain, the head determines every entry. -/
theorem chainHead_inj {Ok : α → Prop} (hlink : LinkInjective link Ok) {xs ys : List α}
    (hxs : ∀ x ∈ xs, Ok x) (hys : ∀ y ∈ ys, Ok y) (h : chainHead link xs = chainHead link ys) :
    xs = ys := by
  induction xs using List.reverseRecOn generalizing ys with
  | nil =>
    rcases List.eq_nil_or_concat ys with rfl | ⟨ys, y, rfl⟩
    · rfl
    · simp [List.concat_eq_append] at h
  | append_singleton xs x ih =>
    rcases List.eq_nil_or_concat ys with rfl | ⟨ys, y, rfl⟩
    · simp at h
    · rw [List.concat_eq_append] at hys h ⊢
      rw [chainHead_concat, chainHead_concat, Option.some.injEq] at h
      obtain ⟨-, hprev, rfl⟩ := hlink (hxs x (by simp)) (hys y (by simp)) h
      rw [ih (fun z hz => hxs z (by simp [hz])) (fun z hz => hys z (by simp [hz])) hprev]

end Library
