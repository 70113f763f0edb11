import Mathlib.Data.Nat.Digits.Lemmas
import Mathlib.Tactic

/-!
# Positional notation as a weighted sum

Digits are written most significant first, as they are read, and so are the tables of
their weights.
-/

namespace Positional

open Finset

/-- The number that digits denote in base `b`, the most significant first. -/
def denote (b : Nat) (ds : List Nat) : Nat := Nat.ofDigits b ds.reverse

@[simp] lemma denote_nil (b : Nat) : denote b [] = 0 := rfl

lemma denote_cons (b d : Nat) (ds : List Nat) :
    denote b (d :: ds) = b ^ ds.length * d + denote b ds := by
  rw [denote, List.reverse_cons, Nat.ofDigits_append, List.length_reverse, Nat.ofDigits_singleton,
    Nat.add_comm, denote]

lemma sum_weights (b : Nat) (ds : List Nat) :
    ∑ i ∈ range ds.length, b ^ (ds.length - 1 - i) * ds.getD i 0 = denote b ds := by
  induction ds with
  | nil => rfl
  | cons d ds ih =>
    rw [denote_cons, ← ih, List.length_cons, sum_range_succ', Nat.add_comm]
    congr 1
    apply sum_congr rfl
    intro i hi
    have hweight : ds.length + 1 - 1 - (i + 1) = ds.length - 1 - i := by omega
    rw [hweight, List.getD_cons_succ]

/-- Horner's scheme adds up the weighted digits, in any commutative semiring. -/
lemma foldl_horner {R : Type*} [CommSemiring R] (b : R) (d : Nat → R) (n : Nat) :
    (List.range n).foldl (fun acc i => acc * b + d i) 0 =
      ∑ i ∈ range n, b ^ (n - 1 - i) * d i := by
  induction n with
  | zero => rfl
  | succ n ih =>
    rw [List.range_succ, List.foldl_append, List.foldl_cons, List.foldl_nil, ih, sum_range_succ,
      sum_mul]
    congr 1
    · apply sum_congr rfl
      intro i hi
      have hweight : n + 1 - 1 - i = n - 1 - i + 1 := by
        have := mem_range.mp hi
        omega
      rw [hweight, pow_succ]
      ring
    · simp

lemma denote_lt {b : Nat} (hb : 1 < b) {ds : List Nat} (h : ∀ d ∈ ds, d < b) :
    denote b ds < b ^ ds.length := by
  rw [denote, ← List.length_reverse]
  exact Nat.ofDigits_lt_base_pow_length hb (fun d hd => h d (List.mem_reverse.mp hd))

/-- The largest number of `k` digits. -/
lemma denote_replicate (b k : Nat) : denote (b + 1) (List.replicate k b) + 1 = (b + 1) ^ k := by
  induction k with
  | zero => rfl
  | succ k ih =>
    rw [List.replicate_succ, denote_cons, List.length_replicate, Nat.add_assoc, ih, pow_succ]
    ring

/-- A table of falling weights, filled from its end. -/
def powerTable {α : Type} (zero : α) (power : Nat → α) (N : Nat) : Array α :=
  (List.range N).foldl (fun table i => table.setIfInBounds (N - 1 - i) (power i))
    (Array.replicate N zero)

lemma powerTable_fold {α : Type} {zero : α} {power : Nat → α} {N : Nat} (k : Nat) (hk : k ≤ N) :
    let table := (List.range k).foldl
      (fun table i => table.setIfInBounds (N - 1 - i) (power i)) (Array.replicate N zero)
    table.size = N ∧ ∀ j < N, N - k ≤ j → table[j]? = some (power (N - 1 - j)) := by
  induction k with
  | zero => simpa using fun j hj hNj => absurd hj (by omega)
  | succ k ih =>
    obtain ⟨hsize, htable⟩ := ih (by omega)
    simp only [List.range_succ, List.foldl_append, List.foldl_cons, List.foldl_nil,
      Array.size_setIfInBounds]
    refine ⟨hsize, fun j hj hNj => ?_⟩
    rw [Array.getElem?_setIfInBounds]
    by_cases hnew : N - 1 - k = j
    · have hpower : N - 1 - j = k := by omega
      rw [if_pos hnew, if_pos (by omega), hpower]
    · rw [if_neg hnew]
      exact htable j hj (by omega)

/-- Entry `i` of a table of `N` powers is the power `N - 1 - i`. -/
lemma getElem?_powerTable {α : Type} (zero : α) (power : Nat → α) (N i : Nat) :
    (powerTable zero power N)[i]? = if i < N then some (power (N - 1 - i)) else none := by
  obtain ⟨hsize, htable⟩ := @powerTable_fold α zero power N N le_rfl
  split_ifs with hi
  · exact htable i hi (by omega)
  · exact Array.getElem?_eq_none (by rw [powerTable, hsize]; omega)

end Positional
