import Mathlib.Data.List.Basic
import Mathlib.Data.Nat.Basic
import Mathlib.Tactic.Ring

/-!
# Length-delimited framing

A list of byte strings is framed by writing, before each string, its length as a big-endian
number of `w` bytes. Frames of one list are never frames of another.
-/

namespace Library

/-- `n` as `w` big-endian digits to base 256. -/
def bigEndian : Nat → Nat → List UInt8
  | 0, _ => []
  | w + 1, n => bigEndian w (n / 256) ++ [UInt8.ofNat n]

lemma length_bigEndian (w n : Nat) : (bigEndian w n).length = w := by
  induction w generalizing n with
  | zero => rfl
  | succ w ih => rw [bigEndian, List.length_append, ih, List.length_singleton]

lemma bigEndian_inj {w n m : Nat} (hn : n < 256 ^ w) (hm : m < 256 ^ w)
    (h : bigEndian w n = bigEndian w m) : n = m := by
  induction w generalizing n m with
  | zero =>
    simp only [Nat.pow_zero] at hn hm
    omega
  | succ w ih =>
    rw [bigEndian, bigEndian] at h
    obtain ⟨hhigh, hlow⟩ := List.append_inj h (by rw [length_bigEndian, length_bigEndian])
    have hn' : n / 256 < 256 ^ w := Nat.div_lt_of_lt_mul (by rwa [Nat.pow_succ'] at hn)
    have hm' : m / 256 < 256 ^ w := Nat.div_lt_of_lt_mul (by rwa [Nat.pow_succ'] at hm)
    have hdiv := ih hn' hm' hhigh
    have hmod : n % 256 = m % 256 := by
      have := congrArg UInt8.toNat (List.singleton_inj.mp hlow)
      simpa using this
    omega

def frame (w : Nat) (part : List UInt8) : List UInt8 := bigEndian w part.length ++ part

/-- The framed parts one after another. -/
def frames (w : Nat) (parts : List (List UInt8)) : List UInt8 := parts.flatMap (frame w)

/-- The frames determine the parts, whatever their number. -/
theorem frames_inj {w : Nat} (hw : 0 < w) {ps qs : List (List UInt8)}
    (hps : ∀ p ∈ ps, p.length < 256 ^ w) (hqs : ∀ q ∈ qs, q.length < 256 ^ w)
    (h : frames w ps = frames w qs) : ps = qs := by
  have hne (p : List UInt8) (rest : List UInt8) : frame w p ++ rest ≠ [] := by
    intro hnil
    have := congrArg List.length hnil
    simp only [frame, List.length_append, length_bigEndian, List.length_nil] at this
    omega
  unfold frames at h
  induction ps generalizing qs with
  | nil =>
    cases qs with
    | nil => rfl
    | cons q qs => exact absurd h.symm (hne q _)
  | cons p ps ih =>
    cases qs with
    | nil => exact absurd h (hne p _)
    | cons q qs =>
      simp only [List.flatMap_cons, frame, List.append_assoc] at h
      obtain ⟨hlen, hrest⟩ := List.append_inj h (by rw [length_bigEndian, length_bigEndian])
      have hpq : p.length = q.length := bigEndian_inj (hps p (by simp)) (hqs q (by simp)) hlen
      obtain ⟨rfl, htail⟩ := List.append_inj hrest hpq
      rw [ih (fun r hr => hps r (by simp [hr])) (fun r hr => hqs r (by simp [hr])) htail]

end Library
