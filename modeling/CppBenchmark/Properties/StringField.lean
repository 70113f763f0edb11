import CppBenchmark.Foundation.Padding

/-!
# Justified string fields

A string is stored in a field of `N` characters, justified on one side and padded on the
other. `StringProperty` returns a view of the field without the padding.
-/

namespace CppBenchmark

open Padding

inductive StringPropertyType
  | none
  | leftJustified
  | rightJustified

namespace StringView

/-- `std::string_view::npos` -/
def npos : Nat := 2 ^ 64 - 1

def findFirstNotOf (c : UInt8) (view : List UInt8) : Nat :=
  (view.findIdx? (· ≠ c)).getD npos

def findLastNotOf (c : UInt8) (view : List UInt8) : Nat :=
  ((view.reverse.findIdx? (· ≠ c)).map (fun i => view.length - 1 - i)).getD npos

def removePrefix (n : Nat) (view : List UInt8) : List UInt8 := view.drop n

def removeSuffix (n : Nat) (view : List UInt8) : List UInt8 := view.take (view.length - n)

end StringView

open StringView

/-- `StringProperty<N, SPType, ValueToSkip>::Get` -/
def StringProperty.get (N : Nat) (type : StringPropertyType) (valueToSkip : UInt8)
    (object : List UInt8) : List UInt8 :=
  let result := object.take N
  match type with
  | .none => result
  | .leftJustified =>
    let endPosition := findLastNotOf valueToSkip result
    if npos ≠ endPosition then
      removeSuffix (((N : Int) - 1 - endPosition) % 2 ^ 64).toNat result
    else []
  | .rightJustified =>
    let startPosition := findFirstNotOf valueToSkip result
    if npos ≠ startPosition then removePrefix startPosition result else []

section Views

variable {N : Nat} {pad : UInt8} {a s : List UInt8}

lemma trimLeft_of_none (h : a.findIdx? (· ≠ pad) = none) : trimLeft pad a = [] := by
  rw [trimLeft_eq_drop, List.findIdx?_eq_none_iff_findIdx_eq.mp h, List.drop_length]

lemma trimLeft_of_some {i : Nat} (h : a.findIdx? (· ≠ pad) = some i) :
    i < a.length ∧ trimLeft pad a = a.drop i := by
  obtain ⟨hlt, hidx⟩ := List.findIdx?_eq_some_iff_findIdx_eq.mp h
  rw [trimLeft_eq_drop, hidx]
  exact ⟨hlt, rfl⟩

lemma get_rightJustified (hN : N < 2 ^ 64) (hlength : a.length = N) :
    StringProperty.get N .rightJustified pad a = trimLeft pad a := by
  subst hlength
  cases h : a.findIdx? (· ≠ pad) with
  | none =>
    have hposition : findFirstNotOf pad a = npos := by rw [findFirstNotOf, h, Option.getD_none]
    simp only [StringProperty.get, List.take_length, hposition, trimLeft_of_none h]
    exact if_neg (fun hne => hne rfl)
  | some i =>
    obtain ⟨hlt, htrim⟩ := trimLeft_of_some h
    have hposition : findFirstNotOf pad a = i := by rw [findFirstNotOf, h, Option.getD_some]
    have hfound : npos ≠ i := by
      unfold npos
      omega
    simp only [StringProperty.get, List.take_length, hposition, htrim, removePrefix]
    exact if_pos hfound

lemma get_leftJustified (hN : N < 2 ^ 64) (hlength : a.length = N) :
    StringProperty.get N .leftJustified pad a = trimRight pad a := by
  subst hlength
  cases h : a.reverse.findIdx? (· ≠ pad) with
  | none =>
    have hposition : findLastNotOf pad a = npos := by
      rw [findLastNotOf, h, Option.map_none, Option.getD_none]
    simp only [StringProperty.get, List.take_length, hposition, trimRight, trimLeft_of_none h,
      List.reverse_nil]
    exact if_neg (fun hne => hne rfl)
  | some i =>
    obtain ⟨hlt, htrim⟩ := trimLeft_of_some h
    rw [List.length_reverse] at hlt
    have hposition : findLastNotOf pad a = a.length - 1 - i := by
      rw [findLastNotOf, h, Option.map_some, Option.getD_some]
    have hfound : npos ≠ a.length - 1 - i := by
      unfold npos
      omega
    -- The trimmed length goes through `N - 1 - endPosition` in `std::size_t`.
    have hsuffix : (((a.length : Int) - 1 - (a.length - 1 - i : Nat)) % 2 ^ 64).toNat = i := by
      omega
    simp only [StringProperty.get, List.take_length, hposition, trimRight, htrim, hsuffix,
      removeSuffix, List.drop_reverse, List.reverse_reverse]
    exact if_pos hfound

end Views

/-- A left-justified field is read as its longest prefix that does not end in padding, and
padding it again gives the field back; a string that does not end in padding is read back
as it was. A right-justified field is the mirror image. -/
theorem stringProperty_padding {N : Nat} (hN : N < 2 ^ 64) (valueToSkip : UInt8) :
    (∀ a : List UInt8, a.length = N →
      LongestPrefix valueToSkip a (StringProperty.get N .leftJustified valueToSkip a) ∧
        List.rightpad N valueToSkip (StringProperty.get N .leftJustified valueToSkip a) = a ∧
        LongestSuffix valueToSkip a (StringProperty.get N .rightJustified valueToSkip a) ∧
        List.leftpad N valueToSkip (StringProperty.get N .rightJustified valueToSkip a) = a) ∧
      ∀ s : List UInt8, s.length ≤ N →
        (s.getLast? ≠ some valueToSkip →
          StringProperty.get N .leftJustified valueToSkip (List.rightpad N valueToSkip s) = s) ∧
        (s.head? ≠ some valueToSkip →
          StringProperty.get N .rightJustified valueToSkip (List.leftpad N valueToSkip s) = s) := by
  constructor
  · intro a hlength
    rw [get_leftJustified hN hlength, get_rightJustified hN hlength, ← hlength]
    exact ⟨trimRight_longest valueToSkip a, rightpad_trimRight valueToSkip a,
      trimLeft_longest valueToSkip a, leftpad_trimLeft valueToSkip a⟩
  · intro s hlength
    constructor
    · intro hends
      have hwidth : (List.rightpad N valueToSkip s).length = N := by
        rw [List.length_rightpad, Nat.max_eq_left hlength]
      rw [get_leftJustified hN hwidth, trimRight_rightpad hends]
    · intro hbegins
      have hwidth : (List.leftpad N valueToSkip s).length = N := by
        rw [List.length_leftpad, Nat.max_eq_left hlength]
      rw [get_rightJustified hN hwidth, trimLeft_leftpad hbegins]

/-- The five characters ` 123 `, padded by blanks. -/
theorem stringProperty_padding_five :
    StringProperty.get 5 .leftJustified 32 [32, 49, 50, 51, 32] = [32, 49, 50, 51] ∧
      StringProperty.get 5 .rightJustified 32 (List.leftpad 5 32 [49, 32, 51]) = [49, 32, 51] := by
  obtain ⟨-, hstrings⟩ := stringProperty_padding (N := 5) (by norm_num) 32
  exact ⟨(hstrings [32, 49, 50, 51] (by simp)).1 (by decide),
    (hstrings [49, 32, 51] (by simp)).2 (by decide)⟩

end CppBenchmark
