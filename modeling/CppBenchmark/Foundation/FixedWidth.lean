import Mathlib.Tactic

/-!
# Unsigned arithmetic that records wrapping

A word of `w` bits carries its value modulo `2 ^ w` and whether any operation that led to
it wrapped around. An exact word has the value of the computation in the natural numbers.
-/

namespace FixedWidth

structure Word (w : Nat) where
  value : Nat
  wrapped : Bool
  value_lt : value < 2 ^ w

namespace Word

variable {w : Nat}

def ofInt (z : Int) : Word w where
  value := (z % 2 ^ w).toNat
  wrapped := !decide (0 ≤ z ∧ z < 2 ^ w)
  value_lt := by
    have hpos : (0 : Int) < 2 ^ w := by positivity
    have hlt := Int.emod_lt_of_pos z hpos
    zify
    rwa [Int.toNat_of_nonneg (Int.emod_nonneg z hpos.ne')]

instance : Add (Word w) where
  add x y := {
    value := (x.value + y.value) % 2 ^ w
    wrapped := x.wrapped || y.wrapped || decide (2 ^ w ≤ x.value + y.value)
    value_lt := Nat.mod_lt _ (Nat.two_pow_pos w) }

instance : Mul (Word w) where
  mul x y := {
    value := (x.value * y.value) % 2 ^ w
    wrapped := x.wrapped || y.wrapped || decide (2 ^ w ≤ x.value * y.value)
    value_lt := Nat.mod_lt _ (Nat.two_pow_pos w) }

@[simp] lemma add_value (x y : Word w) : (x + y).value = (x.value + y.value) % 2 ^ w := rfl

@[simp] lemma mul_value (x y : Word w) : (x * y).value = (x.value * y.value) % 2 ^ w := rfl

@[simp] lemma add_wrapped (x y : Word w) :
    (x + y).wrapped = (x.wrapped || y.wrapped || decide (2 ^ w ≤ x.value + y.value)) := rfl

@[simp] lemma mul_wrapped (x y : Word w) :
    (x * y).wrapped = (x.wrapped || y.wrapped || decide (2 ^ w ≤ x.value * y.value)) := rfl

/-- The word is `n`, and no operation that led to it wrapped around. -/
structure Exact (x : Word w) (n : Nat) : Prop where
  value : x.value = n
  wrapped : x.wrapped = false

lemma exact_ofInt {z : Int} {n : Nat} (hz : z = n) (hn : n < 2 ^ w) :
    (ofInt z : Word w).Exact n := by
  have hlt : z < 2 ^ w := by
    rw [hz]
    exact_mod_cast hn
  have hnonneg : 0 ≤ z := by omega
  constructor
  · simp only [ofInt, Int.emod_eq_of_lt hnonneg hlt]
    omega
  · simp [ofInt, hnonneg, hlt]

lemma Exact.add {x y : Word w} {a b : Nat} (hx : x.Exact a) (hy : y.Exact b) (h : a + b < 2 ^ w) :
    (x + y).Exact (a + b) := by
  constructor
  · rw [add_value, hx.value, hy.value, Nat.mod_eq_of_lt h]
  · rw [add_wrapped, hx.value, hy.value, hx.wrapped, hy.wrapped, decide_eq_false (by omega)]
    rfl

lemma Exact.mul {x y : Word w} {a b : Nat} (hx : x.Exact a) (hy : y.Exact b) (h : a * b < 2 ^ w) :
    (x * y).Exact (a * b) := by
  constructor
  · rw [mul_value, hx.value, hy.value, Nat.mod_eq_of_lt h]
  · rw [mul_wrapped, hx.value, hy.value, hx.wrapped, hy.wrapped, decide_eq_false (by omega)]
    rfl

/-- The value modulo `2 ^ w`, where wrapping does not matter. -/
def toZMod (x : Word w) : ZMod (2 ^ w) := x.value

@[simp] lemma toZMod_add (x y : Word w) : (x + y).toZMod = x.toZMod + y.toZMod := by
  simp only [toZMod, add_value, ZMod.natCast_mod, Nat.cast_add]

@[simp] lemma toZMod_mul (x y : Word w) : (x * y).toZMod = x.toZMod * y.toZMod := by
  simp only [toZMod, mul_value, ZMod.natCast_mod, Nat.cast_mul]

@[simp] lemma toZMod_ofInt (z : Int) : (ofInt z : Word w).toZMod = (z : ZMod (2 ^ w)) := by
  have hnonneg : 0 ≤ z % 2 ^ w := Int.emod_nonneg z (by positivity)
  have hmod := ZMod.intCast_mod z (2 ^ w)
  push_cast at hmod
  rw [toZMod, ofInt, ← Int.cast_natCast, Int.toNat_of_nonneg hnonneg, hmod]

lemma value_eq_mod {x : Word w} {n : Nat} (h : x.toZMod = n) : x.value = n % 2 ^ w := by
  rw [toZMod, ZMod.natCast_eq_natCast_iff', Nat.mod_eq_of_lt x.value_lt] at h
  exact h

lemma value_eq_of_toZMod {x y : Word w} (h : x.toZMod = y.toZMod) : x.value = y.value := by
  rw [value_eq_mod h, Nat.mod_eq_of_lt y.value_lt]

end Word

end FixedWidth
