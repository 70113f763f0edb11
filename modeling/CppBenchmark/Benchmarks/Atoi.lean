import CppBenchmark.Properties.DecimalDecoders

/-!
# The benchmarked string conversions

`AtoiNaive` is Horner's scheme; the other two multiply each character by an entry of a
table of powers of ten that is cut to zero above the largest power that fits. All three
wrap around in their type, and the strings the benchmark feeds them are padded decimal
numbers of 64 bits.
-/

namespace CppBenchmark

open FixedWidth Finset Positional

namespace Atoi

/-- The benchmark's `PowerOf10`, which is zero above `digits10`. -/
def powerOf10 (w iN : Nat) : Word w :=
  if digits10 w < iN then Word.ofInt 0 else CppBenchmark.powerOf10 w iN

def powerOf10Generator (w STRING_SIZE : Nat) : Array (Word w) :=
  powerTable (Word.ofInt 0) (powerOf10 w) STRING_SIZE

/-- `s[i] - '0'` -/
def digit (s : List UInt8) (i : Nat) : Int := charValue (s.getD i 0) - 48

def atoiNaive (w STRING_SIZE : Nat) (s : List UInt8) : Word w :=
  (List.range STRING_SIZE).foldl
    (fun result i => result * Word.ofInt 10 + Word.ofInt (digit s i)) (Word.ofInt 0)

def term (w STRING_SIZE : Nat) (s : List UInt8) (i : Nat) : Word w :=
  (powerOf10Generator w STRING_SIZE).getD i (Word.ofInt 0) * Word.ofInt (digit s i)

def atoiVectorization (w STRING_SIZE : Nat) (s : List UInt8) : Word w :=
  remainderLoop STRING_SIZE (term w STRING_SIZE s) 0 (Word.ofInt 0)

def atoiVectorizationExplicitUnroll (w STRING_SIZE : Nat) (s : List UInt8) : Word w :=
  accumulate STRING_SIZE (term w STRING_SIZE s)

/-- `std::to_string` -/
def toString (n : Nat) : List UInt8 := (Nat.toDigits 10 n).map (fun c => UInt8.ofNat c.toNat)

/-- `GetNumberAsString` for the number drawn. -/
def getNumberAsString (drawn iStringSize : Nat) : List UInt8 :=
  let unpaddedNumberString := toString drawn
  if iStringSize ≤ unpaddedNumberString.length then unpaddedNumberString.take iStringSize
  else
    (List.replicate iStringSize 48).take (iStringSize - unpaddedNumberString.length) ++
      unpaddedNumberString

/-- At most twenty characters, or only zeros before the last twenty. -/
def LeadingZeros (STRING_SIZE : Nat) (s : List UInt8) : Prop :=
  STRING_SIZE ≤ 20 ∨ ∀ i, i < STRING_SIZE - 20 → s.getD i 0 = 48

variable {w N : Nat} (s : List UInt8)

lemma atoiNaive_toZMod : (atoiNaive w N s).toZMod =
    ∑ i ∈ range N, (10 : ZMod (2 ^ w)) ^ (N - 1 - i) * (digit s i : ZMod (2 ^ w)) := by
  have hstep : ∀ (x : Word w) (i : Nat), x.toZMod * 10 + (digit s i : ZMod (2 ^ w)) =
      (x * Word.ofInt 10 + Word.ofInt (digit s i)).toZMod := by
    intro x i
    simp
  have hfold : (List.range N).foldl (fun acc i => acc * 10 + (digit s i : ZMod (2 ^ w)))
      (Word.ofInt 0 : Word w).toZMod = (atoiNaive w N s).toZMod :=
    List.foldl_hom Word.toZMod hstep
  rw [← hfold, Word.toZMod_ofInt, Int.cast_zero, foldl_horner]

lemma atoiVectorization_toZMod :
    (atoiVectorization w N s).toZMod = ∑ i ∈ range N, (term w N s i).toZMod :=
  remainderLoop_toZMod 0 (Word.ofInt 0) (Nat.zero_le N) (by simp)

lemma term_toZMod {i : Nat} (hi : i < N) : (term w N s i).toZMod =
    (if digits10 w < N - 1 - i then 0 else 10 ^ (N - 1 - i)) * (digit s i : ZMod (2 ^ w)) := by
  have hentry : (powerOf10Generator w N).getD i (Word.ofInt 0) = powerOf10 w (N - 1 - i) := by
    rw [powerOf10Generator, Array.getD_eq_getD_getElem?, getElem?_powerTable, if_pos hi,
      Option.getD_some]
  rw [term, hentry, Word.toZMod_mul, Word.toZMod_ofInt, powerOf10]
  split_ifs
  · simp
  · rw [powerOf10_toZMod]

lemma digits10_sixtyFour : digits10 64 = 19 := by norm_num [digits10]

/-- The two table versions add up the same terms. -/
lemma vectorization_eq_unroll : (atoiVectorization w N s).value =
    (atoiVectorizationExplicitUnroll w N s).value := by
  apply Word.value_eq_of_toZMod
  rw [atoiVectorization_toZMod, atoiVectorizationExplicitUnroll, accumulate_toZMod]

/-- Cutting the table off is harmless where the characters it meets are zeros. -/
lemma naive_eq_vectorization (h : LeadingZeros N s) :
    (atoiNaive 64 N s).value = (atoiVectorization 64 N s).value := by
  apply Word.value_eq_of_toZMod
  rw [atoiNaive_toZMod, atoiVectorization_toZMod]
  apply sum_congr rfl
  intro i hi
  rw [term_toZMod s (mem_range.mp hi), digits10_sixtyFour]
  split_ifs with hcut
  · have hzero : digit s i = 0 := by
      rcases h with hshort | hzeros
      · omega
      · rw [digit, hzeros i (by omega)]
        rfl
    rw [hzero]
    simp
  · rfl

lemma toString_length {n : Nat} (hn : n < 2 ^ 64) : (toString n).length ≤ 20 := by
  rw [toString, List.length_map, Nat.length_toDigits_le_iff (by norm_num) (by norm_num)]
  exact hn.trans (by norm_num)

lemma getNumberAsString_length (drawn iStringSize : Nat) :
    (getNumberAsString drawn iStringSize).length = iStringSize := by
  unfold getNumberAsString
  dsimp only
  split_ifs with h
  · rw [List.length_take, Nat.min_eq_left h]
  · rw [List.length_append, List.length_take, List.length_replicate]
    omega

lemma getNumberAsString_leadingZeros {drawn : Nat} (hdrawn : drawn < 2 ^ 64) (iStringSize : Nat) :
    LeadingZeros iStringSize (getNumberAsString drawn iStringSize) := by
  have hlength := toString_length hdrawn
  unfold getNumberAsString LeadingZeros
  dsimp only
  split_ifs with h
  · exact Or.inl (h.trans hlength)
  · right
    intro i hi
    have hpad : i < ((List.replicate iStringSize (48 : UInt8)).take
        (iStringSize - (toString drawn).length)).length := by
      rw [List.length_take, List.length_replicate]
      omega
    rw [List.getD_eq_getElem?_getD, List.getElem?_append_left hpad, List.getElem?_eq_getElem hpad]
    simp

end Atoi

open Atoi in
/-- The three conversions agree modulo `2 ^ 64` on every string that is short enough or
padded with zeros, the two table versions on every string, and the benchmark only
generates such strings. -/
theorem conversions_agree :
    (∀ (N : Nat) (s : List UInt8), s.length = N →
      (atoiVectorization 64 N s).value = (atoiVectorizationExplicitUnroll 64 N s).value ∧
        (LeadingZeros N s → (atoiNaive 64 N s).value = (atoiVectorization 64 N s).value ∧
          (atoiNaive 64 N s).value = (atoiVectorizationExplicitUnroll 64 N s).value)) ∧
      ∀ drawn iStringSize, drawn < 2 ^ 64 →
        (getNumberAsString drawn iStringSize).length = iStringSize ∧
          LeadingZeros iStringSize (getNumberAsString drawn iStringSize) := by
  constructor
  · intro N s _
    have hunroll := @vectorization_eq_unroll 64 N s
    refine ⟨hunroll, ?_⟩
    intro hzeros
    have hnaive := naive_eq_vectorization s hzeros
    exact ⟨hnaive, hnaive.trans hunroll⟩
  · intro drawn iStringSize hdrawn
    exact ⟨getNumberAsString_length drawn iStringSize,
      getNumberAsString_leadingZeros hdrawn iStringSize⟩

open Atoi in
/-- Twenty-four characters, among them `!`, and as many for a number of twenty digits. -/
theorem conversions_agree_padded :
    let s : List UInt8 := List.replicate 4 48 ++ [52, 33, 50] ++ List.replicate 17 57
    let t := getNumberAsString (2 ^ 64 - 1) 24
    (atoiNaive 64 24 s).value = (atoiVectorization 64 24 s).value ∧
      (atoiNaive 64 24 s).value = (atoiVectorizationExplicitUnroll 64 24 s).value ∧
      (atoiNaive 64 24 t).value = (atoiVectorization 64 24 t).value ∧
      (atoiNaive 64 24 t).value = (atoiVectorizationExplicitUnroll 64 24 t).value ∧
      t.length = 24 := by
  intro s t
  obtain ⟨hconversions, hstrings⟩ := conversions_agree
  have hs : LeadingZeros 24 s := Or.inr (by decide)
  obtain ⟨hlength, ht⟩ := hstrings (2 ^ 64 - 1) 24 (by norm_num)
  obtain ⟨hvectorization, hunroll⟩ := (hconversions 24 s rfl).2 hs
  obtain ⟨hvectorization', hunroll'⟩ := (hconversions 24 t hlength).2 ht
  exact ⟨hvectorization, hunroll, hvectorization', hunroll', hlength⟩

end CppBenchmark
