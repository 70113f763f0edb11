import CppBenchmark.Properties.SwapEndianness

/-!
# The portable byte reversal

`bit_swap` moves the bytes of a number one by one with shifts and masks. It reverses them,
as the swap of the wire decoders does.
-/

namespace CppBenchmark

open ByteMemory

/-- The bits of the arithmetic on a type of `n` bytes, after the promotion to `int`. -/
def promotedBits (n : Nat) : Nat := max 32 (8 * n)

/-- `(i >> N * CHAR_BIT & std::uint8_t(-1)) << (sizeof(T) - 1 - N) * CHAR_BIT` -/
def swappedByte (n i N : Nat) : Nat :=
  (((i >>> (N * 8)) &&& 255) <<< ((n - 1 - N) * 8)) % 2 ^ promotedBits n

/-- `bit_swap_impl` for a `T` of `n` bytes: the pack is folded from its end. -/
def bitSwapImpl (n i : Nat) : Nat :=
  ((List.range n).map (swappedByte n i)).foldr (· ||| ·) 0 % 2 ^ (8 * n)

/-- `bit_swap`: a signed argument is converted to the unsigned type. -/
def bitSwap (n : Nat) (i : Int) : Nat := bitSwapImpl n (i % 2 ^ (8 * n)).toNat

def byteAt (v k : Nat) : Nat := v / 256 ^ k % 256

section Swap

variable {n i k : Nat}

lemma ofBytesBE_cons (b : UInt8) (bs : List UInt8) :
    ofBytesBE (b :: bs) = 256 ^ bs.length * b.toNat + ofBytesBE bs := by
  unfold ofBytesBE ofBytesLE
  rw [List.reverse_cons, List.map_append, Nat.ofDigits_append, List.length_map, List.length_reverse,
    List.map_singleton, Nat.ofDigits_singleton, Nat.add_comm]

lemma ofBytesBE_lt (bs : List UInt8) : ofBytesBE bs < 256 ^ bs.length := by
  rw [← List.length_reverse]
  exact ofBytesLE_lt bs.reverse

lemma and_byte_shiftLeft_lt {j : Nat} (hj : j < n) : (k &&& 255) <<< (j * 8) < 2 ^ (8 * n) := by
  have hbyte : k &&& 255 < 2 ^ 8 := Nat.and_lt_two_pow k (by norm_num)
  calc (k &&& 255) <<< (j * 8) < 2 ^ 8 <<< (j * 8) := by
        rw [Nat.shiftLeft_eq, Nat.shiftLeft_eq]
        exact Nat.mul_lt_mul_of_pos_right hbyte (Nat.two_pow_pos _)
    _ = 2 ^ (8 + j * 8) := by rw [Nat.shiftLeft_eq, ← pow_add]
    _ ≤ 2 ^ (8 * n) := Nat.pow_le_pow_right (by norm_num) (by omega)

/-- No shift loses a bit, neither in `int` nor in the type itself. -/
lemma swappedByte_eq (hk : k < n) :
    swappedByte n i k = ((i >>> (k * 8)) &&& 255) <<< ((n - 1 - k) * 8) := by
  have hlt : ((i >>> (k * 8)) &&& 255) <<< ((n - 1 - k) * 8) < 2 ^ (8 * n) :=
    and_byte_shiftLeft_lt (by omega)
  apply Nat.mod_eq_of_lt
  exact hlt.trans_le (Nat.pow_le_pow_right (by norm_num) (Nat.le_max_right 32 (8 * n)))

lemma foldr_or_bytes (n i : Nat) :
    ((List.range n).map (fun N => ((i >>> (N * 8)) &&& 255) <<< ((n - 1 - N) * 8))).foldr
      (· ||| ·) 0 = ofBytesBE (toBytesLE n i) := by
  induction n generalizing i with
  | zero => rfl
  | succ n ih =>
    have hbyte : (UInt8.ofNat i).toNat = i % 256 := UInt8.toNat_ofNat'
    have hlow : i &&& 255 = i % 256 := Nat.and_two_pow_sub_one_eq_mod i 8
    have hrest : (List.range n).map (fun N =>
        ((i >>> ((N + 1) * 8)) &&& 255) <<< ((n + 1 - 1 - (N + 1)) * 8)) =
        (List.range n).map (fun N => (((i / 256) >>> (N * 8)) &&& 255) <<< ((n - 1 - N) * 8)) := by
      apply List.map_congr_left
      intro N _
      have hshift : i >>> ((N + 1) * 8) = (i / 256) >>> (N * 8) := by
        rw [Nat.add_one_mul, Nat.add_comm, Nat.shiftRight_add, Nat.shiftRight_eq_div_pow i 8]
      have hplace : n + 1 - 1 - (N + 1) = n - 1 - N := by omega
      rw [hshift, hplace]
    have hlt := ofBytesBE_lt (toBytesLE n (i / 256))
    rw [toBytesLE_length] at hlt
    have hpow : 256 ^ n = 2 ^ (n * 8) := by
      rw [mul_comm, pow_mul]
      norm_num
    rw [List.range_succ_eq_map, List.map_cons, List.map_map, List.foldr_cons]
    simp only [Function.comp_def, Nat.succ_eq_add_one]
    rw [hrest, ih, toBytesLE, ofBytesBE_cons, toBytesLE_length, hbyte]
    simp only [Nat.zero_mul, Nat.shiftRight_zero, Nat.add_sub_cancel, Nat.sub_zero, hlow]
    rw [← Nat.shiftLeft_add_eq_or_of_lt (by rwa [← hpow]), Nat.shiftLeft_eq, ← hpow, Nat.mul_comm]

/-- The bytes of the result are those of the argument in the opposite order. -/
lemma bitSwapImpl_eq (n i : Nat) : bitSwapImpl n i = ofBytesBE (toBytesLE n i) := by
  have hmap : (List.range n).map (swappedByte n i) =
      (List.range n).map (fun N => ((i >>> (N * 8)) &&& 255) <<< ((n - 1 - N) * 8)) := by
    apply List.map_congr_left
    intro N hN
    exact swappedByte_eq (List.mem_range.mp hN)
  have hlt := ofBytesBE_lt (toBytesLE n i)
  rw [toBytesLE_length] at hlt
  have hpow : 256 ^ n = 2 ^ (8 * n) := by
    rw [pow_mul]
    norm_num
  rw [bitSwapImpl, hmap, foldr_or_bytes, Nat.mod_eq_of_lt (by rwa [← hpow])]

lemma getElem_toBytesLE (n v : Nat) (hk : k < (toBytesLE n v).length) :
    ((toBytesLE n v)[k]).toNat = byteAt v k := by
  induction n generalizing v k with
  | zero => simp [toBytesLE] at hk
  | succ n ih =>
    cases k with
    | zero => simp [toBytesLE, byteAt, UInt8.toNat_ofNat']
    | succ k =>
      have hnext := ih (v / 256) (by simpa [toBytesLE] using hk)
      simp only [toBytesLE, List.getElem_cons_succ, hnext, byteAt]
      rw [Nat.div_div_eq_div_mul, pow_succ']

lemma toBytesLE_bitSwapImpl (n i : Nat) : toBytesLE n (bitSwapImpl n i) = (toBytesLE n i).reverse := by
  have hbytes := toBytesLE_ofBytesLE (toBytesLE n i).reverse
  rw [List.length_reverse, toBytesLE_length] at hbytes
  rw [bitSwapImpl_eq]
  exact hbytes

lemma toNat_emod {x : Nat} (hx : x < 2 ^ (8 * n)) : ((x : Int) % 2 ^ (8 * n)).toNat = x := by
  norm_cast
  exact Nat.mod_eq_of_lt hx

lemma bitSwap_of_lt {x : Nat} (hx : x < 2 ^ (8 * n)) : bitSwap n x = bitSwapImpl n x := by
  rw [bitSwap, toNat_emod hx]

lemma bitSwapImpl_lt (n i : Nat) : bitSwapImpl n i < 2 ^ (8 * n) :=
  Nat.mod_lt _ (Nat.two_pow_pos _)

lemma byteAt_bitSwapImpl (hk : k < n) : byteAt (bitSwapImpl n i) (n - 1 - k) = byteAt i k := by
  have hplace : n - 1 - k < (toBytesLE n (bitSwapImpl n i)).length := by
    rw [toBytesLE_length]
    omega
  rw [← getElem_toBytesLE n _ hplace, ← getElem_toBytesLE n i (by simpa using hk)]
  congr 1
  have hindex : (toBytesLE n i).length - 1 - (n - 1 - k) = k := by
    rw [toBytesLE_length]
    omega
  simp only [toBytesLE_bitSwapImpl, List.getElem_reverse, hindex]

lemma bitSwapImpl_bitSwapImpl {x : Nat} (hx : x < 2 ^ (8 * n)) :
    bitSwapImpl n (bitSwapImpl n x) = x := by
  have hpow : 256 ^ n = 2 ^ (8 * n) := by
    rw [pow_mul]
    norm_num
  rw [bitSwapImpl_eq n (bitSwapImpl n x), toBytesLE_bitSwapImpl, ofBytesBE, List.reverse_reverse,
    ofBytesLE_toBytesLE_of_lt (by rwa [hpow])]

end Swap

/-- The portable reversal moves byte `k` to byte `n - 1 - k`, is its own inverse, and for
the types of the wire decoders returns the bits that they return. -/
theorem bitSwap_reverses (n : Nat) :
    (∀ x : Nat, x < 2 ^ (8 * n) → bitSwap n x < 2 ^ (8 * n) ∧
      (∀ k < n, byteAt (bitSwap n x) (n - 1 - k) = byteAt x k) ∧ bitSwap n (bitSwap n x) = x) ∧
      ∀ object : List UInt8, object.length = n → n ∈ [2, 4, 8] →
        ∀ i : Int, (i % 2 ^ (8 * n)).toNat = Property.get object →
          bitSwap n i = SwapEndiannessProperty.get object := by
  constructor
  · intro x hx
    have hlt := bitSwapImpl_lt n x
    rw [bitSwap_of_lt hx, bitSwap_of_lt hlt]
    exact ⟨hlt, fun k hk => byteAt_bitSwapImpl hk, bitSwapImpl_bitSwapImpl hx⟩
  · intro object hlength _ i hi
    subst hlength
    rw [bitSwap, hi, bitSwapImpl_eq, Property.get, toBytesLE_ofBytesLE,
      SwapEndiannessProperty.get_eq]

/-- The number -2 of four bytes, and a number of two bytes. -/
theorem bitSwap_reverses_negative : bitSwap 4 (-2) = SwapEndiannessProperty.get [254, 255, 255, 255] ∧
    bitSwap 2 (bitSwap 2 (0x1234 : Nat)) = 0x1234 := by
  constructor
  · exact (bitSwap_reverses 4).2 [254, 255, 255, 255] rfl (by decide) (-2) (by decide)
  · exact ((bitSwap_reverses 2).1 0x1234 (by norm_num)).2.2

end CppBenchmark
