import CppBenchmark.Foundation.XorShift

/-!
# The benchmarked hash functions of 64-bit keys

The keys are signed, so `>>` copies the sign bit, and the mixers merge keys that the
unsigned mixers they are written after would keep apart.
-/

namespace CppBenchmark

open XorShift

/-- `Hash64_Murmur3Mixer`'s `Murmur3MixerHash::operator()`. -/
def murmur3MixerHash (iKey : BitVec 64) : BitVec 64 :=
  let iKey := iKey ^^^ iKey.sshiftRight 33
  let iKey := iKey * 0xff51afd7ed558ccd#64
  let iKey := iKey ^^^ iKey.sshiftRight 33
  let iKey := iKey * 0xc4ceb9fe1a85ec53#64
  iKey ^^^ iKey.sshiftRight 33

namespace Murmur3Mixer

/-- The word that the second of the three shift steps meets. -/
def secondWord (iKey : BitVec 64) : BitVec 64 := xorShift 33 iKey * 0xff51afd7ed558ccd#64

def thirdWord (iKey : BitVec 64) : BitVec 64 :=
  xorShift 33 (secondWord iKey) * 0xc4ceb9fe1a85ec53#64

/-- Some shift step meets a word for one key and its complement for the other. -/
def Merged (x y : BitVec 64) : Prop :=
  y = ~~~x ∨ secondWord y = ~~~secondWord x ∨ thirdWord y = ~~~thirdWord x

variable {x y : BitVec 64}

lemma secondWord_inj : secondWord x = secondWord y ↔ y = x ∨ y = ~~~x :=
  step_mul_eq_iff (d := 0x4f74430c22a54005#64) (by decide) (by norm_num)

lemma thirdWord_inj :
    thirdWord x = thirdWord y ↔ secondWord y = secondWord x ∨ secondWord y = ~~~secondWord x :=
  step_mul_eq_iff (d := 0x9cb4b2f8129337db#64) (by decide) (by norm_num)

/-- The keys that collide with a key: itself and those a shift step merges with it. -/
lemma murmur3MixerHash_eq_iff : murmur3MixerHash x = murmur3MixerHash y ↔ y = x ∨ Merged x y := by
  have hthird : ∀ z, murmur3MixerHash z = xorShift 33 (thirdWord z) := fun _ => rfl
  rw [hthird, hthird, xorShift_eq_iff (by norm_num), eq_comm, thirdWord_inj, eq_comm, secondWord_inj,
    Merged, or_assoc, or_assoc]

lemma not_merged_self : ¬Merged x x := by
  rintro (h | h | h)
  all_goals exact not_ne_self (by norm_num) _ h.symm

lemma merged_not (x : BitVec 64) : Merged x (~~~x) := Or.inl rfl

end Murmur3Mixer

open Murmur3Mixer in
/-- Two keys collide exactly when a shift step merges them, and no key is free of
collisions: its complement has the same hash. -/
theorem murmur3MixerHash_injective_iff (x : BitVec 64) :
    (∀ y, (murmur3MixerHash x = murmur3MixerHash y → x = y) ↔ ¬Merged x y) ∧
      ¬∀ y, murmur3MixerHash x = murmur3MixerHash y → x = y := by
  apply inj_at_iff
  · exact fun _ => murmur3MixerHash_eq_iff
  · exact not_merged_self
  · exact merged_not x

/-- The keys 0 and -1 have the same hash. -/
theorem murmur3MixerHash_collision : ¬∀ x y : BitVec 64,
    murmur3MixerHash x = murmur3MixerHash y → x = y := by
  intro hall
  exact absurd (hall 0#64 (BitVec.allOnes 64) (by decide)) (by decide)

/-- `Hash64_ThomasWangHash`'s `ThomasWangHash::operator()`. -/
def thomasWangHash (iKey : BitVec 64) : BitVec 64 :=
  let iKey := ~~~iKey + iKey <<< 21
  let iKey := iKey ^^^ iKey.sshiftRight 24
  let iKey := (iKey + iKey <<< 3) + iKey <<< 8
  let iKey := iKey ^^^ iKey.sshiftRight 14
  let iKey := (iKey + iKey <<< 2) + iKey <<< 4
  let iKey := iKey ^^^ iKey.sshiftRight 28
  iKey + iKey <<< 31

namespace ThomasWang

def add21 (x : BitVec 64) : BitVec 64 := ~~~x + x <<< 21

def add3And8 (x : BitVec 64) : BitVec 64 := x + x <<< 3 + x <<< 8

def add2And4 (x : BitVec 64) : BitVec 64 := x + x <<< 2 + x <<< 4

def add31 (x : BitVec 64) : BitVec 64 := x + x <<< 31

/-- The word that the second of the three shift steps meets. -/
def secondWord (iKey : BitVec 64) : BitVec 64 := add3And8 (xorShift 24 (add21 iKey))

def thirdWord (iKey : BitVec 64) : BitVec 64 := add2And4 (xorShift 14 (secondWord iKey))

/-- Some shift step meets a word for one key and its complement for the other. -/
def Merged (x y : BitVec 64) : Prop :=
  add21 y = ~~~add21 x ∨ secondWord y = ~~~secondWord x ∨ thirdWord y = ~~~thirdWord x

/-- The key that the first shift step merges with a key. -/
def partner (iKey : BitVec 64) : BitVec 64 := 0x7ffffbffffdfffff#64 - iKey

variable {x y : BitVec 64}

lemma add21_inj (x y : BitVec 64) : add21 x = add21 y ↔ x = y := by
  unfold add21
  rw [not_add_shiftLeft, not_add_shiftLeft, sub_left_inj,
    mul_right_inj_of_inverse (by decide : (BitVec.twoPow 64 21 - 1#64) * 0x7ffffbffffdfffff#64 = 1#64)]

lemma add3And8_inj (x y : BitVec 64) : add3And8 x = add3And8 y ↔ x = y := by
  unfold add3And8
  rw [add_two_shiftLeft, add_two_shiftLeft]
  exact mul_right_inj_of_inverse (d := 0xd38ff08b1c03dd39#64) (by decide)

lemma add2And4_inj (x y : BitVec 64) : add2And4 x = add2And4 y ↔ x = y := by
  unfold add2And4
  rw [add_two_shiftLeft, add_two_shiftLeft]
  exact mul_right_inj_of_inverse (d := 0xcf3cf3cf3cf3cf3d#64) (by decide)

lemma add31_inj (x y : BitVec 64) : add31 x = add31 y ↔ x = y := by
  unfold add31
  rw [add_shiftLeft, add_shiftLeft]
  exact mul_right_inj_of_inverse (d := 0x3fffffff80000001#64) (by decide)

/-- The keys that collide with a key: itself and those a shift step merges with it. -/
lemma thomasWangHash_eq_iff : thomasWangHash x = thomasWangHash y ↔ y = x ∨ Merged x y := by
  have hlast : ∀ z, thomasWangHash z = add31 (xorShift 28 (thirdWord z)) := fun _ => rfl
  have hthird : thirdWord y = thirdWord x ↔
      secondWord x = secondWord y ∨ secondWord x = ~~~secondWord y :=
    step_eq_iff add2And4_inj (by norm_num)
  have hsecond : secondWord x = secondWord y ↔ add21 y = add21 x ∨ add21 y = ~~~add21 x :=
    step_eq_iff add3And8_inj (by norm_num)
  have hnot : secondWord x = ~~~secondWord y ↔ secondWord y = ~~~secondWord x := by
    rw [eq_comm, BitVec.not_eq_comm]
  rw [hlast, hlast, step_eq_iff add31_inj (by norm_num), hthird, hsecond, hnot, add21_inj, Merged,
    or_assoc, or_assoc]

lemma not_merged_self : ¬Merged x x := by
  rintro (h | h | h)
  all_goals exact not_ne_self (by norm_num) _ h.symm

lemma merged_partner (x : BitVec 64) : Merged x (partner x) := by
  have hinverse : (BitVec.twoPow 64 21 - 1#64) * 0x7ffffbffffdfffff#64 = 1#64 := by decide
  left
  rw [add21, add21, not_add_shiftLeft, not_add_shiftLeft, partner, BitVec.not_eq_neg_add, sub_mul,
    mul_comm (0x7ffffbffffdfffff#64) _, hinverse]
  ring

end ThomasWang

open ThomasWang in
/-- Two keys collide exactly when a shift step merges them, and no key is free of
collisions: its partner has the same hash. -/
theorem thomasWangHash_injective_iff (x : BitVec 64) :
    (∀ y, (thomasWangHash x = thomasWangHash y → x = y) ↔ ¬Merged x y) ∧
      ¬∀ y, thomasWangHash x = thomasWangHash y → x = y := by
  apply inj_at_iff
  · exact fun _ => thomasWangHash_eq_iff
  · exact not_merged_self
  · exact merged_partner x

/-- The keys 0 and 0x7ffffbffffdfffff have the same hash. -/
theorem thomasWangHash_collision : ¬∀ x y : BitVec 64,
    thomasWangHash x = thomasWangHash y → x = y := by
  intro hall
  exact absurd (hall 0#64 0x7ffffbffffdfffff#64 (by decide)) (by decide)

end CppBenchmark
