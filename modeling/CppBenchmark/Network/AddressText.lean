import CppBenchmark.Foundation.DecimalText
import CppBenchmark.Network.Headers

/-!
# Addresses as text

The IPv4 header prints its addresses from the numbers its accessors return, the least
significant byte first. The accessors have already brought the octets into host order, so
the last octet on the wire is printed first.
-/

namespace CppBenchmark

open ByteMemory PackedLayout DecimalText

def formatIPv4Address (iIPv4Address : Nat) : List Char :=
  (List.range 4).foldl (fun result i =>
    let result := result ++ Nat.toDigits 10 ((iIPv4Address >>> (i * 8)) &&& 0xff)
    if i < 3 then result ++ ['.'] else result) []

def IPv4Header.getFormattedSourceAddress (object : List UInt8) : List Char :=
  formatIPv4Address (IPv4HeaderLayout.getSourceIPAddress object)

def IPv4Header.getFormattedDestinationAddress (object : List UInt8) : List Char :=
  formatIPv4Address (IPv4HeaderLayout.getDestinationIPAddress object)

/-- The text is the dotted quad of the octets, and reads back as them. -/
structure PrintsDotted (octets : List UInt8) (text : List Char) : Prop where
  text_eq : text = joinDecimals '.' (octets.map UInt8.toNat)
  reads : readDecimals '.' text = octets.map UInt8.toNat

section Dotted

variable {octets octets' : List UInt8} {b0 b1 b2 b3 : UInt8} {object : List UInt8}

lemma printsDotted_joinDecimals (hne : octets ≠ []) (hne' : octets' ≠ []) :
    PrintsDotted octets (joinDecimals '.' (octets'.map UInt8.toNat)) ↔ octets' = octets := by
  have hmap : octets.map UInt8.toNat ≠ [] := by simpa using hne
  have hmap' : octets'.map UInt8.toNat ≠ [] := by simpa using hne'
  have hinj : Function.Injective (List.map UInt8.toNat) :=
    List.map_injective_iff.mpr (fun _ _ => UInt8.toNat_inj.mp)
  constructor
  · intro h
    exact hinj ((joinDecimals_inj (by decide) hmap' hmap).mp h.text_eq)
  · rintro rfl
    exact ⟨rfl, readDecimals_joinDecimals (by decide) hmap⟩

/-- Byte `i` of a number, as the formatting loop extracts it. -/
lemma shiftRight_and_byte (v i : Nat) : (v >>> (i * 8)) &&& 0xff = v / 256 ^ i % 256 := by
  have hpow : (2 : Nat) ^ (i * 8) = 256 ^ i := by
    rw [mul_comm, pow_mul]
    norm_num
  rw [Nat.shiftRight_eq_div_pow, hpow]
  exact Nat.and_two_pow_sub_one_eq_mod _ 8

/-- The octets of an address field are printed from the last to the first. -/
lemma formatIPv4Address_swapped (b0 b1 b2 b3 : UInt8) :
    formatIPv4Address (SwapEndiannessProperty.get [b0, b1, b2, b3]) =
      joinDecimals '.' ([b3, b2, b1, b0].map UInt8.toNat) := by
  have h0 := b0.toNat_lt
  have h1 := b1.toNat_lt
  have h2 := b2.toNat_lt
  have h3 := b3.toNat_lt
  have hvalue : SwapEndiannessProperty.get [b0, b1, b2, b3] =
      b3.toNat + 256 * (b2.toNat + 256 * (b1.toNat + 256 * b0.toNat)) := by
    rw [SwapEndiannessProperty.get_eq]
    simp [ofBytesBE, ofBytesLE, Nat.ofDigits_cons]
  have hbytes : ∀ v : Nat, formatIPv4Address v = joinDecimals '.'
      [v / 256 ^ 0 % 256, v / 256 ^ 1 % 256, v / 256 ^ 2 % 256, v / 256 ^ 3 % 256] := by
    intro v
    simp [formatIPv4Address, List.range_succ, shiftRight_and_byte, joinDecimals]
  rw [hbytes, hvalue]
  apply congrArg
  simp only [List.map_cons, List.map_nil, List.cons.injEq, and_true]
  omega

lemma formatIPv4Address_iff (b0 b1 b2 b3 : UInt8) :
    PrintsDotted [b0, b1, b2, b3]
        (formatIPv4Address (SwapEndiannessProperty.get [b0, b1, b2, b3])) ↔
      b0 = b3 ∧ b1 = b2 := by
  rw [formatIPv4Address_swapped, printsDotted_joinDecimals (by simp) (by simp)]
  simp only [List.cons.injEq, and_true]
  constructor
  · rintro ⟨h30, h21, -, -⟩
    exact ⟨h30.symm, h21.symm⟩
  · rintro ⟨rfl, rfl⟩
    exact ⟨rfl, rfl, rfl, rfl⟩

end Dotted

/-- An address is printed in dotted order exactly when it reads the same from both ends. -/
theorem formattedAddress_iff (object : List UInt8) (b0 b1 b2 b3 : UInt8) :
    (field IPv4HeaderLayout.sizes object 8 = [b0, b1, b2, b3] →
      (PrintsDotted [b0, b1, b2, b3] (IPv4Header.getFormattedSourceAddress object) ↔
        b0 = b3 ∧ b1 = b2)) ∧
      (field IPv4HeaderLayout.sizes object 9 = [b0, b1, b2, b3] →
        (PrintsDotted [b0, b1, b2, b3] (IPv4Header.getFormattedDestinationAddress object) ↔
          b0 = b3 ∧ b1 = b2)) := by
  constructor
  · intro hfield
    rw [IPv4Header.getFormattedSourceAddress, IPv4HeaderLayout.getSourceIPAddress, hfield]
    exact formatIPv4Address_iff b0 b1 b2 b3
  · intro hfield
    rw [IPv4Header.getFormattedDestinationAddress, IPv4HeaderLayout.getDestinationIPAddress, hfield]
    exact formatIPv4Address_iff b0 b1 b2 b3

theorem formattedAddress_sameFromBothEnds :
    let object : List UInt8 := [0x45, 0, 0, 20, 0, 0, 0, 0, 64, 17, 0, 0, 10, 1, 1, 10, 10, 0, 0, 2]
    PrintsDotted [10, 1, 1, 10] (IPv4Header.getFormattedSourceAddress object) ∧
      ¬PrintsDotted [10, 0, 0, 2] (IPv4Header.getFormattedDestinationAddress object) := by
  intro object
  constructor
  · exact ((formattedAddress_iff object 10 1 1 10).1 rfl).mpr ⟨rfl, rfl⟩
  · intro hprints
    exact absurd (((formattedAddress_iff object 10 0 0 2).2 rfl).mp hprints).1 (by decide)

/-- The source address 192.168.0.1 is printed as 1.0.168.192. -/
theorem source_printed_backwards :
    let object : List UInt8 := [0x45, 0, 0, 20, 0, 0, 0, 0, 64, 17, 0, 0, 192, 168, 0, 1, 10, 0, 0, 2]
    IPv4Header.getFormattedSourceAddress object = "1.0.168.192".toList ∧
      ¬PrintsDotted [192, 168, 0, 1] (IPv4Header.getFormattedSourceAddress object) := by
  refine ⟨by decide, ?_⟩
  intro hprints
  exact absurd ((formatIPv4Address_iff 192 168 0 1).mp hprints).1 (by decide)

end CppBenchmark
