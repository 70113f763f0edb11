import Mathlib.Data.List.GetD
import Mathlib.Tactic

/-!
# Bytes as hexadecimal text

A byte is written as two lower-case digits, the high nibble first, and read back from them.
-/

namespace HexText

def hexDigits : List Char := "0123456789abcdef".toList

def hexCode (b : UInt8) : List Char := [Nat.digitChar (b.toNat / 16), Nat.digitChar (b.toNat % 16)]

def hexValue (c : Char) : Nat := hexDigits.idxOf c

def readHex : List Char → List UInt8
  | hi :: lo :: text => UInt8.ofNat (16 * hexValue hi + hexValue lo) :: readHex text
  | _ => []

lemma hexValue_digitChar {n : Nat} (h : n < 16) : hexValue (Nat.digitChar n) = n := by
  revert n
  decide

lemma hexDigits_getD {n : Nat} (h : n < 16) : hexDigits.getD n '0' = Nat.digitChar n := by
  revert n
  decide

lemma digitChar_mem_hexDigits {n : Nat} (h : n < 16) : Nat.digitChar n ∈ hexDigits := by
  revert n
  decide

lemma mem_hexDigits_of_mem_hexCode {b : UInt8} {c : Char} (h : c ∈ hexCode b) : c ∈ hexDigits := by
  have hb := b.toNat_lt
  simp only [hexCode, List.mem_cons, List.not_mem_nil, or_false] at h
  rcases h with rfl | rfl
  · exact digitChar_mem_hexDigits (by omega)
  · exact digitChar_mem_hexDigits (by omega)

lemma mem_hexDigits_of_mem_toDigits {n : Nat} {c : Char} (h : c ∈ Nat.toDigits 16 n) :
    c ∈ hexDigits := by
  induction n using Nat.strongRecOn with
  | ind n ih =>
    rw [Nat.toDigits_eq_if (by norm_num)] at h
    split_ifs at h with hn
    · rw [List.mem_singleton.mp h]
      exact digitChar_mem_hexDigits hn
    · rcases List.mem_append.mp h with h | h
      · exact ih (n / 16) (by omega) h
      · rw [List.mem_singleton.mp h]
        exact digitChar_mem_hexDigits (Nat.mod_lt n (by norm_num))

lemma leftpad_toDigits (b : UInt8) : List.leftpad 2 '0' (Nat.toDigits 16 b.toNat) = hexCode b := by
  have hb := b.toNat_lt
  rw [Nat.toDigits_eq_if (by norm_num)]
  split_ifs with hsmall
  · have hhigh : b.toNat / 16 = 0 := Nat.div_eq_of_lt hsmall
    rw [hexCode, hhigh, Nat.mod_eq_of_lt hsmall]
    rfl
  · rw [Nat.toDigits_of_lt_base (by omega)]
    rfl

lemma readHex_hexCode_append (b : UInt8) (text : List Char) :
    readHex (hexCode b ++ text) = b :: readHex text := by
  have hb := b.toNat_lt
  have hvalue : 16 * hexValue (Nat.digitChar (b.toNat / 16)) +
      hexValue (Nat.digitChar (b.toNat % 16)) = b.toNat := by
    rw [hexValue_digitChar (by omega), hexValue_digitChar (by omega)]
    omega
  rw [hexCode, List.cons_append, List.cons_append, List.nil_append, readHex, hvalue,
    UInt8.ofNat_toNat]

lemma readHex_hexCode (b : UInt8) : readHex (hexCode b) = [b] := readHex_hexCode_append b []

theorem readHex_hexCodes (bs : List UInt8) : readHex (bs.flatMap hexCode) = bs := by
  induction bs with
  | nil => rfl
  | cons b bs ih => rw [List.flatMap_cons, readHex_hexCode_append, ih]

lemma length_hexCodes (bs : List UInt8) : (bs.flatMap hexCode).length = 2 * bs.length := by
  induction bs with
  | nil => rfl
  | cons b bs ih =>
    rw [List.flatMap_cons, List.length_append, ih, List.length_cons]
    simp [hexCode]
    ring

end HexText
