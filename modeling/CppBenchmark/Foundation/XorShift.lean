import Mathlib.Data.BitVec
import Mathlib.Tactic

/-!
# Steps of integer mixers

A mixer alternates steps `x ^ (x >> s)` with multiplications by odd constants. On a signed
word the shift copies the sign bit, so a step cannot tell a word from its complement; it
tells any other two words apart. A multiplication by an odd constant loses nothing.
-/

namespace XorShift

variable {w s : Nat} {x y : BitVec w}

/-- `x ^ (x >> s)` on a signed word. -/
def xorShift (s : Nat) (x : BitVec w) : BitVec w := x ^^^ x.sshiftRight s

lemma xorShift_not (s : Nat) (x : BitVec w) : xorShift s (~~~x) = xorShift s x := by
  unfold xorShift
  ext i hi
  have hw : 0 < w := by omega
  simp only [BitVec.getElem_xor, BitVec.getElem_sshiftRight, BitVec.getElem_not, BitVec.msb_not, hw,
    decide_true, Bool.true_and]
  split <;> simp

lemma xorShift_xor (s : Nat) (x y : BitVec w) :
    xorShift s (x ^^^ y) = xorShift s x ^^^ xorShift s y := by
  unfold xorShift
  rw [BitVec.sshiftRight_xor_distrib]
  ac_rfl

/-- A word that the shift leaves alone repeats its sign bit. -/
lemma getElem_eq_msb (hs : 0 < s) (h : x.sshiftRight s = x) (k : Nat) :
    ∀ i (hi : i < w), w ≤ i + k → x[i] = x.msb := by
  -- The induction is on the distance to the top of the word.
  induction k with
  | zero =>
    intro i hi hk
    omega
  | succ k ih =>
    intro i hi hk
    rw [← h, BitVec.getElem_sshiftRight, h]
    split
    · next hlt => exact ih (s + i) hlt (by omega)
    · rfl

lemma eq_const_of_sshiftRight (hs : 0 < s) (h : x.sshiftRight s = x) :
    x = 0#w ∨ x = BitVec.allOnes w := by
  cases hmsb : x.msb with
  | false =>
    left
    ext i hi
    rw [getElem_eq_msb hs h w i hi (by omega), hmsb]
    simp
  | true =>
    right
    ext i hi
    rw [getElem_eq_msb hs h w i hi (by omega), hmsb]
    simp

/-- The step merges exactly a word with its complement. -/
theorem xorShift_eq_iff (hs : 0 < s) : xorShift s x = xorShift s y ↔ y = x ∨ y = ~~~x := by
  constructor
  · intro h
    have hzero : xorShift s (x ^^^ y) = 0#w := by
      rw [xorShift_xor, h, BitVec.xor_self]
    have hfixed : (x ^^^ y).sshiftRight s = x ^^^ y := (BitVec.xor_eq_zero_iff.mp hzero).symm
    have hy : y = x ^^^ (x ^^^ y) := by
      rw [← BitVec.xor_assoc, BitVec.xor_self, BitVec.zero_xor]
    rcases eq_const_of_sshiftRight hs hfixed with hd | hd
    · left
      rw [hy, hd, BitVec.xor_zero]
    · right
      rw [hy, hd, BitVec.xor_allOnes]
  · rintro (rfl | rfl)
    · rfl
    · exact (xorShift_not s x).symm

lemma not_ne_self (hw : 0 < w) (x : BitVec w) : ~~~x ≠ x := by
  intro h
  have hbit := congrArg (fun z : BitVec w => z.getLsbD 0) h
  simp [hw] at hbit

/-- A constant with an inverse, such as an odd one, can be cancelled. -/
lemma mul_right_inj_of_inverse {c d : BitVec w} (h : c * d = 1#w) : x * c = y * c ↔ x = y := by
  constructor
  · intro heq
    calc x = x * c * d := by rw [BitVec.mul_assoc, h, BitVec.mul_one]
      _ = y * c * d := by rw [heq]
      _ = y := by rw [BitVec.mul_assoc, h, BitVec.mul_one]
  · exact congrArg (· * c)

/-- A step followed by a word operation that loses nothing. -/
lemma step_eq_iff {f : BitVec w → BitVec w} (hf : ∀ x y, f x = f y ↔ x = y) (hs : 0 < s) :
    f (xorShift s x) = f (xorShift s y) ↔ y = x ∨ y = ~~~x := by
  rw [hf, xorShift_eq_iff hs]

lemma step_mul_eq_iff {c d : BitVec w} (h : c * d = 1#w) (hs : 0 < s) :
    xorShift s x * c = xorShift s y * c ↔ y = x ∨ y = ~~~x :=
  step_eq_iff (fun _ _ => mul_right_inj_of_inverse h) hs

/-- Adding a shifted copy is a multiplication by an odd constant. -/
lemma add_shiftLeft (x : BitVec w) (k : Nat) :
    x + x <<< k = x * (1#w + BitVec.twoPow w k) := by
  rw [BitVec.shiftLeft_eq_mul_twoPow, BitVec.mul_add, BitVec.mul_one]

lemma add_two_shiftLeft (x : BitVec w) (j k : Nat) :
    x + x <<< j + x <<< k = x * (1#w + BitVec.twoPow w j + BitVec.twoPow w k) := by
  rw [add_shiftLeft, BitVec.shiftLeft_eq_mul_twoPow x k, ← BitVec.mul_add]

lemma not_add_shiftLeft (x : BitVec w) (k : Nat) :
    ~~~x + x <<< k = x * (BitVec.twoPow w k - 1#w) - 1#w := by
  have hone : x * 1#w = x := BitVec.mul_one x
  rw [BitVec.shiftLeft_eq_mul_twoPow, BitVec.not_eq_neg_add, mul_sub, hone]
  abel

/-- A function that collides at `a` exactly with the partners of `a` tells apart the others,
and is not injective at `a` if there is a partner. -/
lemma inj_at_iff {α β : Type*} {f : α → β} {Merged : α → α → Prop} {a partner : α}
    (heq : ∀ b, f a = f b ↔ b = a ∨ Merged a b) (hself : ¬Merged a a) (hpartner : Merged a partner) :
    (∀ b, (f a = f b → a = b) ↔ ¬Merged a b) ∧ ¬∀ b, f a = f b → a = b := by
  have hpair : ∀ b, (f a = f b → a = b) ↔ ¬Merged a b := by
    intro b
    rw [heq]
    constructor
    · intro hinj hmerged
      obtain rfl := hinj (Or.inr hmerged)
      exact hself hmerged
    · rintro hnot (hba | hmerged)
      · exact hba.symm
      · exact absurd hmerged hnot
  refine ⟨hpair, ?_⟩
  intro hall
  exact (hpair partner).mp (hall partner) hpartner

end XorShift
