import CppBenchmark.Foundation.SeparatedText

/-!
# Decimal numbers in text

Numbers written in decimal and joined by a separator that is no digit. Splitting the text
at the separator and reading the pieces gives the numbers back.
-/

namespace DecimalText

open SeparatedText

variable {sep : Char} {ns ms : List Nat}

def joinDecimals (sep : Char) (ns : List Nat) : List Char :=
  [sep].intercalate (ns.map (Nat.toDigits 10))

def readDecimals (sep : Char) (text : List Char) : List Nat :=
  (text.splitOn sep).map (fun digits => Nat.ofDigitChars 10 digits 0)

lemma not_mem_toDigits (hsep : sep.isDigit = false) (n : Nat) : sep ∉ Nat.toDigits 10 n := by
  intro hmem
  have hdigit := Nat.isDigit_of_mem_toDigits (by decide) (by decide) hmem
  rw [hsep] at hdigit
  cases hdigit

theorem readDecimals_joinDecimals (hsep : sep.isDigit = false) (hns : ns ≠ []) :
    readDecimals sep (joinDecimals sep ns) = ns := by
  have hread : ∀ n, Nat.ofDigitChars 10 (Nat.toDigits 10 n) 0 = id n :=
    fun _ => Nat.ofDigitChars_ten_toDigits
  have hmap := map_splitOn_intercalate (not_mem_toDigits hsep) hread hns
  rw [List.map_id] at hmap
  exact hmap

lemma joinDecimals_inj (hsep : sep.isDigit = false) (hns : ns ≠ []) (hms : ms ≠ []) :
    joinDecimals sep ns = joinDecimals sep ms ↔ ns = ms := by
  constructor
  · intro h
    rw [← readDecimals_joinDecimals hsep hns, h, readDecimals_joinDecimals hsep hms]
  · exact congrArg (joinDecimals sep)

end DecimalText
