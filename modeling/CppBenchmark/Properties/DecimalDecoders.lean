import CppBenchmark.Properties.PowerOf10
import Mathlib.Data.List.GetD

/-!
# Decimal decoders

Numbers as ASCII digits, as one digit a byte and as two digits a byte. Each decoder adds
up the digits with their weights.
-/

namespace CppBenchmark

open FixedWidth Finset Positional

/-- The value of a `char`, which is signed. -/
def charValue (c : UInt8) : Int := if c.toNat < 128 then c.toNat else c.toNat - 256

/-- `IntegerStringProperty<N, T>::Get` for `T` of `w` bits. Types narrower than `int` are
promoted and converted back, which gives the same value modulo `2 ^ w`. -/
def IntegerStringProperty.get (w N : Nat) (object : List UInt8) : Word w :=
  accumulate N (fun i => powerOf10At w N i * Word.ofInt (charValue (object.getD i 0) - 48))

inductive BinaryCodedDecimalType where
  | packed
  | unpacked

namespace BinaryCodedDecimalProperty

variable (w N : Nat) (type : BinaryCodedDecimalType) (object : List UInt8)

def computeByte (bytePosition : Nat) : Word w :=
  let byte := if N = 1 then object.getD 0 0 else object.getD bytePosition 0
  match type with
  | .packed =>
    let leastSignificantNibble := byte >>> 4
    let mostSignificantNibble := byte &&& 0x0F
    powerOf10At w N bytePosition * powerOf10At w N bytePosition *
      Word.ofInt (leastSignificantNibble.toNat * 10 + mostSignificantNibble.toNat)
  | .unpacked => powerOf10At w N bytePosition * Word.ofInt byte.toNat

def get : Word w := accumulate N (computeByte w N type object)

end BinaryCodedDecimalProperty

def decimalValue (ds : List (Fin 10)) : Nat := denote 10 (ds.map Fin.val)

def asciiDigits (ds : List (Fin 10)) : List UInt8 := ds.map (fun d => UInt8.ofNat (48 + d.val))

def digitBytes (ds : List (Fin 10)) : List UInt8 := ds.map (fun d => UInt8.ofNat d.val)

def packedDigits : List (Fin 10) → List UInt8
  | a :: b :: ds => UInt8.ofNat (16 * a + b) :: packedDigits ds
  | _ => []

def digitPairs : List (Fin 10) → List Nat
  | a :: b :: ds => (10 * a + b) :: digitPairs ds
  | _ => []

section Accumulate

variable {w b : Nat} {ds : List Nat}

lemma weight_mul_lt {N i d : Nat} (hd : d < b) (hi : i < N) : b ^ (N - 1 - i) * d < b ^ N := by
  have hpos : 0 < b := by omega
  calc b ^ (N - 1 - i) * d < b ^ (N - 1 - i) * b :=
        Nat.mul_lt_mul_of_pos_left hd (Nat.pow_pos hpos)
    _ = b ^ (N - 1 - i + 1) := (pow_succ b (N - 1 - i)).symm
    _ ≤ b ^ N := Nat.pow_le_pow_right hpos (by omega)

/-- Terms that are the weighted digits of a number add up to it. -/
lemma accumulate_denote (hb : 1 < b) (hds : ∀ d ∈ ds, d < b) (hfits : b ^ ds.length ≤ 2 ^ w)
    {term : Nat → Word w}
    (hterm : ∀ i < ds.length, (term i).Exact (b ^ (ds.length - 1 - i) * ds.getD i 0)) :
    (accumulate ds.length term).Exact (denote b ds) := by
  rw [← sum_weights]
  apply accumulate_exact hterm
  rw [sum_weights]
  exact lt_of_lt_of_le (denote_lt hb hds) hfits

end Accumulate

section Digits

variable {w : Nat} {ds : List (Fin 10)}

lemma pow_le_of_digits10 {n : Nat} (h : n ≤ digits10 w) : 10 ^ n ≤ 2 ^ w :=
  (Nat.pow_le_pow_right (by norm_num) h).trans (Nat.pow_log_le_self 10 (Nat.two_pow_pos w).ne')

lemma digit_lt {d : Nat} (h : d ∈ ds.map Fin.val) : d < 10 := by
  obtain ⟨e, -, rfl⟩ := List.mem_map.mp h
  exact e.isLt

lemma getD_map_of_lt {α β : Type} {f : α → β} {l : List α} {i : Nat} {d : β} (hi : i < l.length) :
    (l.map f).getD i d = f l[i] := by
  rw [List.getD_eq_getElem _ d (by rwa [List.length_map]), List.getElem_map]

lemma accumulate_digits (hdigits : ds.length ≤ digits10 w) {digit : Nat → Int}
    (hdigit : ∀ i (hi : i < ds.length), digit i = (ds[i] : Nat)) :
    (accumulate ds.length
      (fun i => powerOf10At w ds.length i * Word.ofInt (digit i))).Exact (decimalValue ds) := by
  have hlength : (ds.map Fin.val).length = ds.length := List.length_map _
  have hfits := pow_le_of_digits10 hdigits
  rw [decimalValue, ← hlength]
  apply accumulate_denote (by norm_num) (fun d => digit_lt) (by rwa [hlength])
  intro i hi
  rw [hlength] at hi ⊢
  rw [getD_map_of_lt hi]
  have hlt := weight_mul_lt ds[i].isLt hi
  have hten : 10 ≤ 10 ^ ds.length := Nat.le_self_pow (by omega) 10
  exact (powerOf10At_exact hdigits hi).mul
    (Word.exact_ofInt (hdigit i hi) (by have := ds[i].isLt; omega)) (by omega)

lemma integerString_exact (hdigits : ds.length ≤ digits10 w) :
    (IntegerStringProperty.get w ds.length (asciiDigits ds)).Exact (decimalValue ds) := by
  apply accumulate_digits hdigits
  intro i hi
  have hdigit := ds[i].isLt
  rw [asciiDigits, getD_map_of_lt hi, charValue,
    UInt8.toNat_ofNat_of_lt' (show 48 + (ds[i] : Nat) < 256 by omega), if_pos (by omega)]
  push_cast
  omega

lemma selectByte_eq {object : List UInt8} {n i : Nat} (hlength : object.length = n)
    (hi : i < object.length) :
    (if n = 1 then object.getD 0 0 else object.getD i 0) = object[i] := by
  have hget := List.getD_eq_getElem object 0 hi
  split_ifs with h
  · obtain rfl : i = 0 := by omega
    exact hget
  · exact hget

lemma unpacked_exact (hdigits : ds.length ≤ digits10 w) :
    (BinaryCodedDecimalProperty.get w ds.length .unpacked (digitBytes ds)).Exact
      (decimalValue ds) := by
  apply accumulate_digits hdigits
  intro i hi
  have hdigit := ds[i].isLt
  have hlength : (digitBytes ds).length = ds.length := List.length_map _
  rw [selectByte_eq hlength (by rwa [hlength])]
  simp only [digitBytes, List.getElem_map]
  rw [UInt8.toNat_ofNat_of_lt' (show (ds[i] : Nat) < 256 by omega)]

/-- What the packed decoder multiplies the squared weight of a byte by. -/
def nibbleValue (byte : UInt8) : Nat := (byte >>> 4).toNat * 10 + (byte &&& 0x0F).toNat

lemma nibbleValue_pack : ∀ a b : Fin 10, nibbleValue (UInt8.ofNat (16 * a + b)) = 10 * a + b := by
  decide

lemma packedDigits_nibbles (ds : List (Fin 10)) :
    (packedDigits ds).map nibbleValue = digitPairs ds := by
  fun_induction packedDigits ds with
  | case1 a b ds ih => rw [List.map_cons, nibbleValue_pack, ih, digitPairs]
  | case2 ds h => cases ds with
    | nil => rfl
    | cons a ds => cases ds with
      | nil => rfl
      | cons b ds => exact absurd rfl (h a b ds)

lemma digitPairs_spec {n : Nat} (hlength : ds.length = 2 * n) :
    (digitPairs ds).length = n ∧ (∀ d ∈ digitPairs ds, d < 100) ∧
      denote 100 (digitPairs ds) = decimalValue ds := by
  induction n generalizing ds with
  | zero =>
    obtain rfl := List.eq_nil_of_length_eq_zero hlength
    simp [digitPairs, decimalValue]
  | succ n ih =>
    obtain ⟨a, b, ds, rfl⟩ : ∃ a b ds', ds = a :: b :: ds' := by
      match ds, hlength with
      | a :: b :: ds', _ => exact ⟨a, b, ds', rfl⟩
    have htail : ds.length = 2 * n := by simpa [Nat.mul_add] using hlength
    obtain ⟨hpairs, hlt, hvalue⟩ := ih htail
    have ha := a.isLt
    have hb := b.isLt
    refine ⟨by rw [digitPairs, List.length_cons, hpairs], ?_, ?_⟩
    · intro d hd
      rcases List.mem_cons.mp hd with rfl | hd
      · omega
      · exact hlt d hd
    · have hsquare : (10 : Nat) ^ (2 * n) = 100 ^ n := pow_mul 10 2 n
      simp only [decimalValue] at hvalue ⊢
      simp only [digitPairs, List.map_cons, denote_cons, List.length_cons, List.length_map, hpairs,
        htail, hvalue, pow_succ, hsquare]
      ring

lemma packedDigits_length {n : Nat} (hlength : ds.length = 2 * n) :
    (packedDigits ds).length = n := by
  rw [← (digitPairs_spec hlength).1, ← packedDigits_nibbles, List.length_map]

lemma computeByte_packed {object : List UInt8} {n i : Nat} (hlength : object.length = n)
    (hi : i < object.length) :
    BinaryCodedDecimalProperty.computeByte w n .packed object i =
      powerOf10At w n i * powerOf10At w n i * Word.ofInt (nibbleValue object[i]) := by
  simp only [BinaryCodedDecimalProperty.computeByte, selectByte_eq hlength hi, nibbleValue]
  push_cast
  rfl

lemma digitPairs_getD {i : Nat} (hi : i < (packedDigits ds).length) :
    (digitPairs ds).getD i 0 = nibbleValue (packedDigits ds)[i] := by
  rw [← packedDigits_nibbles, getD_map_of_lt hi]

lemma packed_exact {n : Nat} (hdigits : 2 * n ≤ digits10 w) (hlength : ds.length = 2 * n) :
    (BinaryCodedDecimalProperty.get w n .packed (packedDigits ds)).Exact (decimalValue ds) := by
  obtain ⟨hpairs, hlt, hvalue⟩ := digitPairs_spec hlength
  have hbytes := packedDigits_length hlength
  have hsquare : ∀ k, 10 ^ k * 10 ^ k = 100 ^ k := fun k => by rw [← Nat.mul_pow]
  have hfits : 100 ^ n ≤ 2 ^ w := by
    rw [← hsquare, ← pow_add, ← two_mul]
    exact pow_le_of_digits10 hdigits
  have hterm : ∀ i < (digitPairs ds).length,
      (BinaryCodedDecimalProperty.computeByte w n .packed (packedDigits ds) i).Exact
        (100 ^ ((digitPairs ds).length - 1 - i) * (digitPairs ds).getD i 0) := by
    intro i hi
    rw [hpairs] at hi ⊢
    have hin : i < (packedDigits ds).length := by omega
    have hpair := digitPairs_getD hin
    have hvalue_lt : nibbleValue (packedDigits ds)[i] < 100 := by
      rw [← hpair]
      exact hlt _ (by rw [List.getD_eq_getElem _ 0 (by omega)]; exact List.getElem_mem _)
    have hweight := weight_mul_lt (d := 1) (b := 100) (by norm_num) hi
    have hproduct := weight_mul_lt hvalue_lt hi
    have hhundred : 100 ≤ 100 ^ n := Nat.le_self_pow (by omega) 100
    have htable := powerOf10At_exact (w := w) (show n ≤ digits10 w by omega) hi
    have htwice := htable.mul htable (by rw [hsquare]; omega)
    rw [hsquare] at htwice
    rw [computeByte_packed hbytes hin, hpair]
    exact htwice.mul (Word.exact_ofInt rfl (by omega)) (by omega)
  have hsum := accumulate_denote (by norm_num) hlt (by rwa [hpairs]) hterm
  rwa [hpairs, hvalue] at hsum

/-- Whatever wraps on the way, the packed decoder is right modulo `2 ^ w`. -/
lemma packed_value {n : Nat} (hlength : ds.length = 2 * n) :
    (BinaryCodedDecimalProperty.get w n .packed (packedDigits ds)).value =
      decimalValue ds % 2 ^ w := by
  obtain ⟨hpairs, -, hvalue⟩ := digitPairs_spec hlength
  have hbytes := packedDigits_length hlength
  have hterm : ∀ i ∈ range n,
      (BinaryCodedDecimalProperty.computeByte w n .packed (packedDigits ds) i).toZMod =
        ((100 ^ (n - 1 - i) * (digitPairs ds).getD i 0 : Nat) : ZMod (2 ^ w)) := by
    intro i hi
    have hin : i < (packedDigits ds).length := by
      rw [hbytes]
      exact mem_range.mp hi
    rw [computeByte_packed hbytes hin, digitPairs_getD hin]
    simp only [Word.toZMod_mul, Word.toZMod_ofInt, powerOf10At_toZMod (mem_range.mp hi), ← mul_pow]
    norm_num
  apply Word.value_eq_mod
  rw [BinaryCodedDecimalProperty.get, accumulate_toZMod, sum_congr rfl hterm, ← hvalue,
    ← sum_weights, hpairs]
  push_cast
  rfl

lemma packed_value_iff {n : Nat} (hlength : ds.length = 2 * n) :
    (BinaryCodedDecimalProperty.get w n .packed (packedDigits ds)).value = decimalValue ds ↔
      decimalValue ds < 2 ^ w := by
  rw [packed_value hlength]
  constructor
  · intro heq
    rw [← heq]
    exact Nat.mod_lt _ (Nat.two_pow_pos w)
  · exact Nat.mod_eq_of_lt

end Digits

section PackedRange

lemma decimalValue_nines (k : Nat) : decimalValue (List.replicate k 9) + 1 = 10 ^ k := by
  have hnines := denote_replicate 9 k
  simpa [decimalValue] using hnines

/-- The packed decoder returns the number that the nibbles denote exactly when it fits into
the type, so it does for all digits exactly when twice the number of bytes is admitted. -/
theorem packed_get_iff (w N : Nat) :
    (∀ ds : List (Fin 10), ds.length = 2 * N →
      ((BinaryCodedDecimalProperty.get w N .packed (packedDigits ds)).value = decimalValue ds ↔
        decimalValue ds < 2 ^ w)) ∧
      ((∀ ds : List (Fin 10), ds.length = 2 * N →
        (BinaryCodedDecimalProperty.get w N .packed (packedDigits ds)).value = decimalValue ds) ↔
          2 * N ≤ digits10 w) := by
  refine ⟨fun ds => packed_value_iff, ?_⟩
  constructor
  · intro hall
    have hlength : (List.replicate (2 * N) (9 : Fin 10)).length = 2 * N := List.length_replicate
    have hlt := (packed_value_iff hlength).mp (hall _ hlength)
    have hnines := decimalValue_nines (2 * N)
    exact Nat.le_log_of_pow_le (by norm_num) (by omega)
  · intro hdigits ds hlength
    exact (packed_exact hdigits hlength).value

theorem packed_get_sixteen :
    (BinaryCodedDecimalProperty.get 16 3 .packed (packedDigits [0, 6, 5, 5, 3, 5])).value =
        decimalValue [0, 6, 5, 5, 3, 5] ∧
      (BinaryCodedDecimalProperty.get 16 3 .packed (packedDigits [0, 6, 5, 5, 3, 6])).value ≠
        decimalValue [0, 6, 5, 5, 3, 6] := by
  constructor
  · exact ((packed_get_iff 16 3).1 [0, 6, 5, 5, 3, 5] rfl).mpr (by decide)
  · intro heq
    exact absurd (((packed_get_iff 16 3).1 [0, 6, 5, 5, 3, 6] rfl).mp heq) (by decide)

/-- Ten bytes are admitted for 64 bits, and twenty digits wrap around. -/
theorem packed_ten_bytes_wrap : 10 ≤ digits10 64 ∧
    (BinaryCodedDecimalProperty.get 64 10 .packed (packedDigits (List.replicate 20 9))).value ≠
      decimalValue (List.replicate 20 9) := by
  have hnines := decimalValue_nines 20
  refine ⟨Nat.le_log_of_pow_le (by norm_num) (by norm_num), ?_⟩
  rw [packed_value rfl]
  omega

end PackedRange

/-- The three decoders return the number that the digits denote, and no operation of them
wraps around. -/
theorem decoders_agree {w M : Nat} (hdigits : M ≤ digits10 w) (ds : List (Fin 10))
    (hlength : ds.length = M) :
    (∀ i < M, (powerOf10At w M i).Exact (10 ^ (M - 1 - i))) ∧
      (IntegerStringProperty.get w M (asciiDigits ds)).Exact (decimalValue ds) ∧
      (BinaryCodedDecimalProperty.get w M .unpacked (digitBytes ds)).Exact (decimalValue ds) ∧
      ∀ N, M = 2 * N →
        (BinaryCodedDecimalProperty.get w N .packed (packedDigits ds)).Exact (decimalValue ds) := by
  subst hlength
  exact ⟨fun _ => powerOf10At_exact hdigits, integerString_exact hdigits, unpacked_exact hdigits,
    fun N hN => packed_exact (by omega) hN⟩

/-- Eighteen digits, which the unrolled loop takes four at a time. -/
theorem decoders_agree_eighteen :
    let ds : List (Fin 10) := [9, 0, 8, 1, 7, 2, 6, 3, 5, 4, 4, 5, 3, 6, 2, 7, 1, 8]
    (IntegerStringProperty.get 64 18 (asciiDigits ds)).value = 908172635445362718 ∧
      (BinaryCodedDecimalProperty.get 64 18 .unpacked (digitBytes ds)).value =
        908172635445362718 ∧
      (BinaryCodedDecimalProperty.get 64 9 .packed (packedDigits ds)).value =
        908172635445362718 := by
  intro ds
  have hdigits : 18 ≤ digits10 64 := Nat.le_log_of_pow_le (by norm_num) (by norm_num)
  have hvalue : decimalValue ds = 908172635445362718 := by decide +kernel
  obtain ⟨-, hascii, hunpacked, hpacked⟩ := decoders_agree hdigits ds rfl
  rw [← hvalue]
  exact ⟨hascii.value, hunpacked.value, (hpacked 9 rfl).value⟩

end CppBenchmark
