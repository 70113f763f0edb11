import CppBenchmark.Properties.DecimalDecoders
import Mathlib.Data.Rat.Cast.Order

/-!
# Decimal fields with decimals

The digits are decoded as an integer and divided by an entry of a table of falling powers
of ten, at an index that the number of decimals determines. Conversion and division are
exact here, and an index outside the table gives `none`.
-/

namespace CppBenchmark

open FixedWidth Positional

/-- `M - 1 - NumberDecimal` in `std::size_t`. -/
def tableIndex (M NumberDecimal : Nat) : Nat := (((M : Int) - 1 - NumberDecimal) % 2 ^ 64).toNat

/-- `FloatingPointStringProperty<N, NumberDecimal, T, IntegerT>::Get` for an `IntegerT` of
`w` bits. -/
def FloatingPointStringProperty.get (w N NumberDecimal : Nat) (object : List UInt8) : Option ℚ :=
  ((powerOf10Generator w N)[tableIndex N NumberDecimal]?).map
    (fun power => ((IntegerStringProperty.get w N object).value : ℚ) / power.value)

inductive FloatingType
  | float
  | double
  | longDouble

/-- `numeric_limits<T>::digits10`. -/
def FloatingType.digits10 : FloatingType → Nat
  | .float => 6
  | .double => 15
  | .longDouble => 18

/-- The bits of the integer type the digits are decoded in. -/
def FloatingType.integerWidth : FloatingType → Nat
  | .double => 64
  | _ => 32

/-- `PowerOf10<T>` of a floating type, exact within its `digits10`. -/
def powerOf10Floating : Nat → ℚ
  | 0 => 1
  | n + 1 => powerOf10Floating n * 10

def BinaryCodedFloatingPointProperty.get (T : FloatingType) (N NumberDecimal : Nat)
    (type : BinaryCodedDecimalType) (object : List UInt8) : Option ℚ :=
  let result : ℚ := (BinaryCodedDecimalProperty.get T.integerWidth N type object).value
  match type with
  | .packed =>
    let powerOf10Adjusted := powerTable 0 powerOf10Floating (N * 2)
    (powerOf10Adjusted[tableIndex (N * 2) NumberDecimal]?).map (fun power => result / power)
  | .unpacked =>
    ((powerOf10Generator T.integerWidth N)[tableIndex N NumberDecimal]?).map
      (fun power => result / power.value)

section Table

variable {M NumberDecimal w : Nat}

lemma powerOf10Floating_eq (n : Nat) : powerOf10Floating n = 10 ^ n := by
  induction n with
  | zero => rfl
  | succ n ih => rw [powerOf10Floating, ih, pow_succ]

lemma tableIndex_lt (hM : M < 2 ^ 64) (h : NumberDecimal < M) :
    tableIndex M NumberDecimal = M - 1 - NumberDecimal := by
  unfold tableIndex
  omega

lemma tableIndex_self (M : Nat) : tableIndex M M = 2 ^ 64 - 1 := by
  unfold tableIndex
  omega

/-- The table has no entry for a field made only of decimals. -/
lemma lookup_powerTable {α : Type} (zero : α) (power : Nat → α) (hM : M < 2 ^ 64)
    (hdecimal : NumberDecimal ≤ M) : (powerTable zero power M)[tableIndex M NumberDecimal]? =
      if NumberDecimal < M then some (power NumberDecimal) else none := by
  rw [getElem?_powerTable]
  split_ifs with hentry hlt hlt
  · rw [tableIndex_lt hM hlt]
    congr 2
    omega
  · obtain rfl : NumberDecimal = M := by omega
    rw [tableIndex_self] at hentry
    omega
  · rw [tableIndex_lt hM hlt] at hentry
    omega
  · rfl

lemma powerOf10_value (hdigits : M ≤ digits10 w) (h : NumberDecimal < M) :
    (powerOf10 w NumberDecimal).value = 10 ^ NumberDecimal := by
  have hlt : 10 ^ NumberDecimal < 10 ^ M := Nat.pow_lt_pow_right (by norm_num) h
  exact (powerOf10_exact NumberDecimal (hlt.trans_le (pow_le_of_digits10 hdigits))).value

lemma scaled_eq_iff {x v : Nat} :
    ((x : ℚ) / 10 ^ NumberDecimal = (v : ℚ) / 10 ^ NumberDecimal) ↔ x = v := by
  rw [div_left_inj' (by positivity), Nat.cast_inj]

/-- Scaling by an entry of an integer table gives the scaled number where there is one. -/
lemma integerTable_scaled {n : Nat} (hM : M < 2 ^ 64) (hdecimal : NumberDecimal ≤ M)
    (hdigits : M ≤ digits10 w) :
    ((powerOf10Generator w M)[tableIndex M NumberDecimal]?).map
        (fun power => (n : ℚ) / power.value) = some ((n : ℚ) / 10 ^ NumberDecimal) ↔
      NumberDecimal < M := by
  rw [powerOf10Generator_eq, lookup_powerTable _ _ hM hdecimal]
  split_ifs with hlt
  · simp [powerOf10_value hdigits hlt, hlt]
  · simp [hlt]

lemma floatingTable_scaled {n v : Nat} (hM : M < 2 ^ 64) (hdecimal : NumberDecimal ≤ M) :
    ((powerTable 0 powerOf10Floating M)[tableIndex M NumberDecimal]?).map
        (fun power => (n : ℚ) / power) = some ((v : ℚ) / 10 ^ NumberDecimal) ↔
      NumberDecimal < M ∧ n = v := by
  rw [lookup_powerTable _ _ hM hdecimal]
  split_ifs with hlt
  · rw [Option.map_some, Option.some.injEq, powerOf10Floating_eq, scaled_eq_iff]
    exact (and_iff_right hlt).symm
  · simp [hlt]

end Table

/-- A field is scaled by its decimals exactly when it has a digit before them and, packed,
when its digits fit into the integer type. -/
theorem floatingPoint_get_iff {M NumberDecimal : Nat} (hM : M < 2 ^ 64)
    (hdecimal : NumberDecimal ≤ M) {ds : List (Fin 10)} (hlength : ds.length = M) :
    (∀ w, M ≤ digits10 w →
      (FloatingPointStringProperty.get w M NumberDecimal (asciiDigits ds) =
        some ((decimalValue ds : ℚ) / 10 ^ NumberDecimal) ↔ NumberDecimal < M)) ∧
      (∀ T : FloatingType, M ≤ digits10 T.integerWidth →
        (BinaryCodedFloatingPointProperty.get T M NumberDecimal .unpacked (digitBytes ds) =
          some ((decimalValue ds : ℚ) / 10 ^ NumberDecimal) ↔ NumberDecimal < M)) ∧
      ∀ (T : FloatingType) (N : Nat), M = 2 * N → N ≤ digits10 T.integerWidth →
        2 * N ≤ T.digits10 →
        (BinaryCodedFloatingPointProperty.get T N NumberDecimal .packed (packedDigits ds) =
          some ((decimalValue ds : ℚ) / 10 ^ NumberDecimal) ↔
            NumberDecimal < M ∧ decimalValue ds < 2 ^ T.integerWidth) := by
  subst hlength
  refine ⟨?_, ?_, ?_⟩
  · intro w hdigits
    rw [FloatingPointStringProperty.get, (integerString_exact hdigits).value]
    exact integerTable_scaled hM hdecimal hdigits
  · intro T hdigits
    simp only [BinaryCodedFloatingPointProperty.get, (unpacked_exact hdigits).value]
    exact integerTable_scaled hM hdecimal hdigits
  · intro T N hN _ _
    have htwice : N * 2 = ds.length := by omega
    simp only [BinaryCodedFloatingPointProperty.get, htwice]
    rw [floatingTable_scaled hM hdecimal, packed_value_iff hN]

theorem floatingPoint_get_two_decimals :
    FloatingPointStringProperty.get 64 4 2 (asciiDigits [1, 2, 3, 4]) = some (1234 / 10 ^ 2) ∧
      BinaryCodedFloatingPointProperty.get .double 2 2 .packed (packedDigits [1, 2, 3, 4]) =
        some (1234 / 10 ^ 2) := by
  have hdigits : (4 : Nat) ≤ digits10 64 := Nat.le_log_of_pow_le (by norm_num) (by norm_num)
  have hvalue : decimalValue [1, 2, 3, 4] = 1234 := by decide
  obtain ⟨hstring, -, hpacked⟩ := @floatingPoint_get_iff 4 2 (by norm_num) (by norm_num)
    [1, 2, 3, 4] rfl
  rw [hvalue] at hstring hpacked
  exact ⟨(hstring 64 hdigits).mpr (by norm_num),
    (hpacked .double 2 rfl (le_trans (by norm_num) hdigits) (by decide)).mpr (by decide)⟩

/-- Two digits, both decimals: the divisor is read outside the table. -/
theorem only_decimals_out_of_bounds :
    FloatingPointStringProperty.get 64 2 2 (asciiDigits [2, 5]) = none ∧
      FloatingPointStringProperty.get 64 2 2 (asciiDigits [2, 5]) ≠
        some ((decimalValue [2, 5] : ℚ) / 10 ^ 2) := by
  have hnone : FloatingPointStringProperty.get 64 2 2 (asciiDigits [2, 5]) = none := by
    rw [FloatingPointStringProperty.get, powerOf10Generator_eq,
      lookup_powerTable _ _ (by norm_num) le_rfl, if_neg (lt_irrefl 2), Option.map_none]
  refine ⟨hnone, ?_⟩
  rw [hnone]
  exact (Option.some_ne_none _).symm

end CppBenchmark
