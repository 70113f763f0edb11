import CppBenchmark.Properties.DecimalDecoders
import CppBenchmark.Properties.SwapEndianness

/-!
# Alphanumeric enums

A message id is a short string packed into an integer, the first character in the least
significant byte, so that a little-endian host stores it as the string itself.
-/

namespace CppBenchmark

open ByteMemory

/-- A `char` widened to `std::size_t`. -/
def charToSize (c : UInt8) : Nat := (charValue c % 2 ^ 64).toNat

/-- `operator""_AlphaNumeric` -/
def alphaNumeric (iString : List UInt8) : Nat :=
  (List.range iString.length).foldl
    (fun result i =>
      ((result <<< 8) % 2 ^ 64) ||| charToSize (iString.getD (iString.length - 1 - i) 0)) 0

/-- `AlphanumericEnumProperty<T>::Stream` for a `T` of `sizeofT` bytes: the characters that
are inserted into the stream. -/
def AlphanumericEnumProperty.stream (sizeofT : Nat) (object : List UInt8) : List UInt8 :=
  (List.range sizeofT).foldl (fun iOStream i => iOStream ++ [object.getD i 0]) []

/-- Only characters in the range 0..127. -/
def SevenBit (s : List UInt8) : Prop := ∀ c ∈ s, c.toNat < 128

section Literal

variable {s t : List UInt8} {w : Nat}

lemma charToSize_of_lt {c : UInt8} (hc : c.toNat < 128) : charToSize c = c.toNat := by
  unfold charToSize charValue
  rw [if_pos hc]
  omega

lemma append_char {result c k : Nat} (hresult : result < 256 ^ k) (hk : k < 8) (hc : c < 256) :
    ((result <<< 8) % 2 ^ 64) ||| c = c + 256 * result := by
  have hpow : 256 ^ (k + 1) ≤ 256 ^ 8 := Nat.pow_le_pow_right (by norm_num) hk
  have hlt : result * 256 < 2 ^ 64 := by
    rw [pow_succ] at hpow
    have hmul := Nat.mul_lt_mul_of_pos_right hresult (by norm_num : 0 < 256)
    norm_num at hpow ⊢
    omega
  have hshift : result <<< 8 = result * 256 := Nat.shiftLeft_eq result 8
  rw [hshift, Nat.mod_eq_of_lt hlt, ← hshift, ← Nat.shiftLeft_add_eq_or_of_lt (by simpa using hc),
    hshift]
  ring

/-- After `k` steps the literal holds the last `k` characters. -/
lemma alphaNumeric_fold (hs : SevenBit s) (hlength : s.length ≤ 8) (k : Nat) (hk : k ≤ s.length) :
    (List.range k).foldl (fun result i =>
      ((result <<< 8) % 2 ^ 64) ||| charToSize (s.getD (s.length - 1 - i) 0)) 0 =
        ofBytesLE (s.drop (s.length - k)) := by
  induction k with
  | zero => simp
  | succ k ih =>
    have hindex : s.length - (k + 1) < s.length := by omega
    have hnext : s.length - 1 - k = s.length - (k + 1) := by omega
    have hrest : s.length - (k + 1) + 1 = s.length - k := by omega
    have hmem := hs _ (List.getElem_mem hindex)
    have hlt : ofBytesLE (s.drop (s.length - k)) < 256 ^ k := by
      have hbound := ofBytesLE_lt (s.drop (s.length - k))
      rwa [List.length_drop, Nat.sub_sub_self (by omega)] at hbound
    rw [List.range_succ, List.foldl_append, ih (by omega), List.foldl_cons, List.foldl_nil, hnext,
      List.getD_eq_getElem _ _ hindex, charToSize_of_lt hmem, append_char hlt (by omega) (by omega),
      List.drop_eq_getElem_cons hindex, hrest, ofBytesLE_cons]

/-- The literal is the number whose bytes in memory are the characters. -/
lemma alphaNumeric_eq (hs : SevenBit s) (hlength : s.length ≤ 8) :
    alphaNumeric s = ofBytesLE s := by
  have h := alphaNumeric_fold hs hlength s.length le_rfl
  rwa [Nat.sub_self, List.drop_zero] at h

lemma stream_eq {object : List UInt8} :
    AlphanumericEnumProperty.stream object.length object = object := by
  have hprefix : ∀ k ≤ object.length,
      (List.range k).foldl (fun iOStream i => iOStream ++ [object.getD i 0]) [] = object.take k := by
    intro k hk
    induction k with
    | zero => simp
    | succ k ih =>
      have hindex : k < object.length := by omega
      rw [List.range_succ, List.foldl_append, ih (by omega), List.foldl_cons, List.foldl_nil,
        List.getD_eq_getElem _ _ hindex, List.take_succ_eq_append_getElem hindex]
  rw [AlphanumericEnumProperty.stream, hprefix _ le_rfl, List.take_length]

lemma ofBytesLE_append_zeros (s : List UInt8) (k : Nat) :
    ofBytesLE (s ++ List.replicate k 0) = ofBytesLE s := by
  induction s with
  | nil =>
    induction k with
    | zero => rfl
    | succ k ih => simpa [List.replicate_succ] using ih
  | cons b s ih => simp [ih]

/-- In memory the value of the literal is the string, followed by zero bytes. -/
lemma toBytesLE_alphaNumeric (hs : SevenBit s) (hlength : s.length ≤ w) (hw : w ≤ 8) :
    toBytesLE w (alphaNumeric s) = List.rightpad w 0 s := by
  have hwidth : (s ++ List.replicate (w - s.length) 0).length = w := by
    simp
    omega
  have hbytes := toBytesLE_ofBytesLE (s ++ List.replicate (w - s.length) (0 : UInt8))
  rwa [hwidth, ofBytesLE_append_zeros, ← alphaNumeric_eq hs (hlength.trans hw)] at hbytes

lemma two_mul_ofBytesLE_lt (hs : SevenBit s) (hne : s ≠ []) :
    2 * ofBytesLE s < 256 ^ s.length := by
  induction s with
  | nil => exact absurd rfl hne
  | cons b s ih =>
    have hb := hs b List.mem_cons_self
    rw [ofBytesLE_cons, List.length_cons, pow_succ]
    by_cases hrest : s = []
    · subst hrest
      simp
      omega
    · have hlt := ih (fun c hc => hs c (List.mem_cons_of_mem b hc)) hrest
      omega

/-- The value is representable in a signed type of `w` bytes too. -/
lemma alphaNumeric_lt (hs : SevenBit s) (hlength : s.length ≤ w) (hw : w ≤ 8) :
    alphaNumeric s < 2 ^ (8 * w - 1) := by
  rw [alphaNumeric_eq hs (hlength.trans hw)]
  by_cases hne : s = []
  · subst hne
    exact Nat.two_pow_pos _
  · have hpos : 0 < s.length := List.length_pos_of_ne_nil hne
    have hbound := two_mul_ofBytesLE_lt hs hne
    have hle : 256 ^ s.length ≤ 256 ^ w := Nat.pow_le_pow_right (by norm_num) hlength
    have hpow : 256 ^ w = 2 * 2 ^ (8 * w - 1) := by
      rw [← pow_succ', show 256 = 2 ^ 8 by rfl, ← pow_mul]
      congr 1
      omega
    omega

end Literal

/-- In an enum of `w` bytes the value of a literal is stored as the string and zero bytes,
which is what `Stream` prints, and the value read from a buffer is that of its characters,
so two ids are equal exactly when their padded strings are. -/
theorem alphaNumeric_wire {w : Nat} (hw : w ∈ [1, 2, 4, 8]) :
    (∀ s, SevenBit s → s.length ≤ w →
      alphaNumeric s < 2 ^ (8 * w - 1) ∧
        toBytesLE w (alphaNumeric s) = s ++ List.replicate (w - s.length) 0 ∧
        AlphanumericEnumProperty.stream w (toBytesLE w (alphaNumeric s)) =
          s ++ List.replicate (w - s.length) 0) ∧
      (∀ buffer, SevenBit buffer → buffer.length = w →
        Property.get buffer = alphaNumeric buffer) ∧
      ∀ s t, SevenBit s → SevenBit t → s.length ≤ w → t.length ≤ w →
        (alphaNumeric s = alphaNumeric t ↔ List.rightpad w 0 s = List.rightpad w 0 t) := by
  have hle : w ≤ 8 := by
    simp only [List.mem_cons, List.not_mem_nil, or_false] at hw
    omega
  refine ⟨?_, ?_, ?_⟩
  · intro s hs hlength
    have hbytes := toBytesLE_alphaNumeric hs hlength hle
    have hstream := @stream_eq (toBytesLE w (alphaNumeric s))
    rw [toBytesLE_length] at hstream
    exact ⟨alphaNumeric_lt hs hlength hle, hbytes, hstream.trans hbytes⟩
  · intro buffer hbuffer hlength
    rw [Property.get, alphaNumeric_eq hbuffer (hlength.trans_le hle)]
  · intro s t hs ht hlength hlength'
    rw [← toBytesLE_alphaNumeric hs hlength hle, ← toBytesLE_alphaNumeric ht hlength' hle]
    constructor
    · exact congrArg (toBytesLE w)
    · intro heq
      have hpow : 2 ^ (8 * w - 1) ≤ 256 ^ w := by
        rw [show 256 = 2 ^ 8 by rfl, ← pow_mul]
        exact Nat.pow_le_pow_right (by norm_num) (Nat.sub_le _ _)
      have hvalue := congrArg ofBytesLE heq
      rwa [ofBytesLE_toBytesLE_of_lt ((alphaNumeric_lt hs hlength hle).trans_le hpow),
        ofBytesLE_toBytesLE_of_lt ((alphaNumeric_lt ht hlength' hle).trans_le hpow)] at hvalue

/-- The id `NO` in an enum of two bytes and in one of four. -/
theorem alphaNumeric_wire_newOrder :
    toBytesLE 2 (alphaNumeric [78, 79]) = [78, 79] ∧
      AlphanumericEnumProperty.stream 4 (toBytesLE 4 (alphaNumeric [78, 79])) = [78, 79, 0, 0] := by
  have hs : SevenBit [78, 79] := by
    intro c hc
    fin_cases hc <;> decide
  exact ⟨((alphaNumeric_wire (w := 2) (by decide)).1 [78, 79] hs (by decide)).2.1,
    ((alphaNumeric_wire (w := 4) (by decide)).1 [78, 79] hs (by decide)).2.2⟩

end CppBenchmark
