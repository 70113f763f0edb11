import CppBenchmark.Foundation.SeparatedText

/-!
# Lines of text

A text is a sequence of lines, each ended by a line feed; splitting it there gives the lines
back. A sequence cut into pieces of one length is given back by joining them.
-/

namespace TextLines

def joinLines (lines : List (List Char)) : List Char := lines.flatMap (fun line => line ++ ['\n'])

def readLines (text : List Char) : List (List Char) := (text.splitOn '\n').dropLast

@[simp] lemma joinLines_nil : joinLines [] = [] := rfl

lemma joinLines_cons (line : List Char) (lines : List (List Char)) :
    joinLines (line :: lines) = line ++ ['\n'] ++ joinLines lines := rfl

lemma joinLines_eq_intercalate (lines : List (List Char)) :
    joinLines lines = ['\n'].intercalate (lines ++ [[]]) := by
  rw [SeparatedText.intercalate_concat, List.append_nil, joinLines]

theorem readLines_joinLines {lines : List (List Char)} (h : ∀ line ∈ lines, '\n' ∉ line) :
    readLines (joinLines lines) = lines := by
  have hpieces : ∀ piece ∈ lines ++ [[]], '\n' ∉ piece := by
    intro piece hpiece
    rcases List.mem_append.mp hpiece with hpiece | hpiece
    · exact h piece hpiece
    · rw [List.mem_singleton.mp hpiece]
      exact List.not_mem_nil
  rw [readLines, joinLines_eq_intercalate, List.splitOn_intercalate '\n' hpieces (by simp),
    List.dropLast_concat]

/-- Pieces of `m` elements, one after the other, are what they were cut from. -/
lemma flatMap_pieces {α : Type*} (xs : List α) (m n : Nat) :
    (List.range n).flatMap (fun k => (xs.drop (m * k)).take m) = xs.take (m * n) := by
  induction n with
  | zero => simp
  | succ n ih =>
    rw [List.range_succ, List.flatMap_append, ih, List.flatMap_singleton, Nat.mul_succ,
      List.take_add]

end TextLines
