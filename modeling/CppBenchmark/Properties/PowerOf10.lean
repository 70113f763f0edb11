import CppBenchmark.Foundation.FixedWidth
import CppBenchmark.Foundation.Positional

/-!
# The table of powers of ten and the unrolled sum

The decimal decoders add up one term for each position, four at a time and then one by
one. The weights come from a table of falling powers of ten.
-/

namespace CppBenchmark

open FixedWidth Finset Positional

/-- `numeric_limits<T>::digits10` of an unsigned type of `w` bits. -/
def digits10 (w : Nat) : Nat := Nat.log 10 (2 ^ w)

def powerOf10 (w : Nat) : Nat → Word w
  | 0 => Word.ofInt 1
  | n + 1 => powerOf10 w n * Word.ofInt 10

def powerOf10Generator (w N : Nat) : Array (Word w) :=
  (List.range N).foldl (fun table i => table.setIfInBounds (N - 1 - i) (powerOf10 w i))
    (Array.replicate N (Word.ofInt 0))

lemma powerOf10Generator_eq (w N : Nat) :
    powerOf10Generator w N = powerTable (Word.ofInt 0) (powerOf10 w) N := rfl

def powerOf10At (w N i : Nat) : Word w := (powerOf10Generator w N).getD i (Word.ofInt 0)

section Loops

variable {w : Nat} (N : Nat) (term : Nat → Word w)

def unrolledLoop (i : Nat) (result : Word w) : Nat × Word w :=
  if i + 4 < N then
    unrolledLoop (i + 4) (result + (term i + term (i + 1) + term (i + 2) + term (i + 3)))
  else (i, result)
termination_by N - i

def remainderLoop (i : Nat) (result : Word w) : Word w :=
  if i < N then remainderLoop (i + 1) (result + term i) else result
termination_by N - i

def accumulate : Word w :=
  let (i, result) := unrolledLoop N term 0 (Word.ofInt 0)
  remainderLoop N term i result

end Loops

section LoopSpecs

variable {w N : Nat} {term : Nat → Word w} {t : Nat → Nat}

lemma partial_sum_lt (htotal : ∑ j ∈ range N, t j < 2 ^ w) {i : Nat} (hi : i ≤ N) :
    ∑ j ∈ range i, t j < 2 ^ w :=
  lt_of_le_of_lt (sum_le_sum_of_subset (range_subset_range.mpr hi)) htotal

lemma unrolledLoop_exact (hterm : ∀ j < N, (term j).Exact (t j))
    (htotal : ∑ j ∈ range N, t j < 2 ^ w) (i : Nat) (result : Word w) (hi : i ≤ N)
    (hresult : result.Exact (∑ j ∈ range i, t j)) :
    (unrolledLoop N term i result).1 ≤ N ∧
      (unrolledLoop N term i result).2.Exact
        (∑ j ∈ range (unrolledLoop N term i result).1, t j) := by
  fun_induction unrolledLoop N term i result with
  | case1 i result hlt ih =>
    -- Four terms are added to each other first, so each of these sums must fit as well.
    have hpartial := partial_sum_lt htotal (show i + 4 ≤ N by omega)
    simp only [sum_range_succ] at hpartial
    apply ih (by omega)
    simp only [sum_range_succ, Nat.add_assoc (∑ j ∈ range i, t j)]
    have h01 := (hterm i (by omega)).add (hterm (i + 1) (by omega)) (by omega)
    have h012 := h01.add (hterm (i + 2) (by omega)) (by omega)
    have h0123 := h012.add (hterm (i + 3) (by omega)) (by omega)
    simpa only [Nat.add_assoc] using hresult.add h0123 (by omega)
  | case2 i result hlt => exact ⟨hi, hresult⟩

lemma remainderLoop_exact (hterm : ∀ j < N, (term j).Exact (t j))
    (htotal : ∑ j ∈ range N, t j < 2 ^ w) (i : Nat) (result : Word w) (hi : i ≤ N)
    (hresult : result.Exact (∑ j ∈ range i, t j)) :
    (remainderLoop N term i result).Exact (∑ j ∈ range N, t j) := by
  fun_induction remainderLoop N term i result with
  | case1 i result hlt ih =>
    have hpartial := partial_sum_lt htotal (show i + 1 ≤ N from hlt)
    rw [sum_range_succ] at hpartial
    apply ih hlt
    rw [sum_range_succ]
    exact hresult.add (hterm i hlt) hpartial
  | case2 i result hge =>
    obtain rfl : i = N := by omega
    exact hresult

/-- Exact terms whose sum fits are added up exactly. -/
lemma accumulate_exact (hterm : ∀ j < N, (term j).Exact (t j))
    (htotal : ∑ j ∈ range N, t j < 2 ^ w) : (accumulate N term).Exact (∑ j ∈ range N, t j) := by
  obtain ⟨hi, hresult⟩ := unrolledLoop_exact hterm htotal 0 (Word.ofInt 0) (Nat.zero_le N)
    (Word.exact_ofInt rfl (Nat.two_pow_pos w))
  exact remainderLoop_exact hterm htotal _ _ hi hresult

lemma unrolledLoop_toZMod (i : Nat) (result : Word w) (hi : i ≤ N)
    (hresult : result.toZMod = ∑ j ∈ range i, (term j).toZMod) :
    (unrolledLoop N term i result).1 ≤ N ∧ (unrolledLoop N term i result).2.toZMod =
      ∑ j ∈ range (unrolledLoop N term i result).1, (term j).toZMod := by
  fun_induction unrolledLoop N term i result with
  | case1 i result hlt ih =>
    apply ih (by omega)
    simp only [sum_range_succ, Word.toZMod_add, hresult]
    ring
  | case2 i result hlt => exact ⟨hi, hresult⟩

lemma remainderLoop_toZMod (i : Nat) (result : Word w) (hi : i ≤ N)
    (hresult : result.toZMod = ∑ j ∈ range i, (term j).toZMod) :
    (remainderLoop N term i result).toZMod = ∑ j ∈ range N, (term j).toZMod := by
  fun_induction remainderLoop N term i result with
  | case1 i result hlt ih =>
    apply ih hlt
    rw [sum_range_succ, Word.toZMod_add, hresult]
  | case2 i result hge =>
    obtain rfl : i = N := by omega
    exact hresult

/-- Modulo `2 ^ w` the terms are added up whether or not they wrap. -/
lemma accumulate_toZMod : (accumulate N term).toZMod = ∑ j ∈ range N, (term j).toZMod := by
  obtain ⟨hi, hresult⟩ := @unrolledLoop_toZMod w N term 0 (Word.ofInt 0) (Nat.zero_le N)
    (by simp)
  exact remainderLoop_toZMod _ _ hi hresult

end LoopSpecs

section Table

variable {w N : Nat}

lemma powerOf10_exact (n : Nat) (h : 10 ^ n < 2 ^ w) : (powerOf10 w n).Exact (10 ^ n) := by
  induction n with
  | zero => exact Word.exact_ofInt rfl h
  | succ n ih =>
    have hle : 10 ^ n ≤ 10 ^ (n + 1) := Nat.pow_le_pow_right (by norm_num) (Nat.le_succ n)
    have hten : 10 ≤ 10 ^ (n + 1) := Nat.le_self_pow (Nat.succ_ne_zero n) 10
    rw [pow_succ] at h ⊢
    exact (ih (by omega)).mul (Word.exact_ofInt rfl (by omega)) h

lemma powerOf10At_eq {i : Nat} (hi : i < N) : powerOf10At w N i = powerOf10 w (N - 1 - i) := by
  rw [powerOf10At, powerOf10Generator_eq, Array.getD_eq_getD_getElem?, getElem?_powerTable,
    if_pos hi, Option.getD_some]

lemma powerOf10_toZMod (n : Nat) : (powerOf10 w n).toZMod = 10 ^ n := by
  induction n with
  | zero => simp [powerOf10]
  | succ n ih => simp [powerOf10, ih, pow_succ]

lemma powerOf10At_toZMod {i : Nat} (hi : i < N) :
    (powerOf10At w N i).toZMod = 10 ^ (N - 1 - i) := by
  rw [powerOf10At_eq hi, powerOf10_toZMod]

/-- Where the length is admitted, the table holds the weights of the positions. -/
lemma powerOf10At_exact (hN : N ≤ digits10 w) {i : Nat} (hi : i < N) :
    (powerOf10At w N i).Exact (10 ^ (N - 1 - i)) := by
  rw [powerOf10At_eq hi]
  apply powerOf10_exact
  calc 10 ^ (N - 1 - i) < 10 ^ N := Nat.pow_lt_pow_right (by norm_num) (by omega)
    _ ≤ 10 ^ digits10 w := Nat.pow_le_pow_right (by norm_num) hN
    _ ≤ 2 ^ w := Nat.pow_log_le_self 10 (Nat.two_pow_pos w).ne'

end Table

end CppBenchmark
