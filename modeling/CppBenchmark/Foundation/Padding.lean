import Mathlib.Tactic

/-!
# Padded sequences

A sequence is stored in a field of a fixed width by padding it on one side, and read back
by trimming the padding. A sequence that begins, or ends, with the padding itself cannot be
told from a shorter one, and every other one is recovered.
-/

namespace Padding

variable {α : Type*} [DecidableEq α] {pad : α} {l s : List α}

def trimLeft (pad : α) (l : List α) : List α := l.dropWhile (· = pad)

def trimRight (pad : α) (l : List α) : List α := (trimLeft pad l.reverse).reverse

/-- `s` is the longest suffix of `l` that does not begin with `pad`. -/
structure LongestSuffix (pad : α) (l s : List α) : Prop where
  suffix : s <:+ l
  begins : s.head? ≠ some pad
  longest : ∀ t, t <:+ l → t.head? ≠ some pad → t.length ≤ s.length

/-- `s` is the longest prefix of `l` that does not end in `pad`. -/
structure LongestPrefix (pad : α) (l s : List α) : Prop where
  isPrefix : s <+: l
  ends : s.getLast? ≠ some pad
  longest : ∀ t, t <+: l → t.getLast? ≠ some pad → t.length ≤ s.length

lemma trimLeft_pad : trimLeft pad (pad :: l) = trimLeft pad l := by
  simp [trimLeft]

lemma trimLeft_of_head (h : s.head? ≠ some pad) : trimLeft pad s = s := by
  cases s with
  | nil => rfl
  | cons x s =>
    have hx : x ≠ pad := by simpa using h
    simp [trimLeft, hx]

/-- Trimming drops what is before the first element that is no padding. -/
lemma trimLeft_eq_drop (pad : α) (l : List α) :
    trimLeft pad l = l.drop (l.findIdx (· ≠ pad)) := by
  rw [trimLeft, List.dropWhile_eq_drop_findIdx_not]
  simp

lemma trimLeft_longest (pad : α) (l : List α) : LongestSuffix pad l (trimLeft pad l) := by
  induction l with
  | nil => exact ⟨List.suffix_refl _, by simp [trimLeft], fun t ht _ => ht.length_le⟩
  | cons x l ih =>
    by_cases hx : x = pad
    · subst hx
      rw [trimLeft_pad]
      refine ⟨ih.suffix.trans (List.suffix_cons x l), ih.begins, ?_⟩
      intro t ht hbegins
      rcases List.suffix_cons_iff.mp ht with rfl | ht
      · simp at hbegins
      · exact ih.longest t ht hbegins
    · have hhead : (x :: l).head? ≠ some pad := by simpa using hx
      rw [trimLeft_of_head hhead]
      exact ⟨List.suffix_refl _, hhead, fun t ht _ => ht.length_le⟩

/-- Padding what was trimmed gives the field back. -/
lemma leftpad_trimLeft (pad : α) (l : List α) : List.leftpad l.length pad (trimLeft pad l) = l := by
  induction l with
  | nil => rfl
  | cons x l ih =>
    by_cases hx : x = pad
    · subst hx
      have hlength := (trimLeft_longest x l).suffix.length_le
      have hpads : l.length + 1 - (trimLeft x l).length = l.length - (trimLeft x l).length + 1 := by
        omega
      rw [trimLeft_pad, List.leftpad, List.length_cons, hpads, List.replicate_succ, List.cons_append]
      exact congrArg (x :: ·) ih
    · rw [trimLeft_of_head (by simpa using hx)]
      simp [List.leftpad]

/-- Trimming what was padded gives the sequence back. -/
lemma trimLeft_leftpad (h : s.head? ≠ some pad) (n : Nat) :
    trimLeft pad (List.leftpad n pad s) = s := by
  unfold List.leftpad
  induction n - s.length with
  | zero => exact trimLeft_of_head h
  | succ k ih => rw [List.replicate_succ, List.cons_append, trimLeft_pad, ih]

omit [DecidableEq α] in
lemma rightpad_reverse (n : Nat) (pad : α) (l : List α) :
    List.rightpad n pad l.reverse = (List.leftpad n pad l).reverse := by
  simp [List.rightpad, List.leftpad]

lemma trimRight_longest (pad : α) (l : List α) : LongestPrefix pad l (trimRight pad l) := by
  have h := trimLeft_longest pad l.reverse
  refine ⟨?_, ?_, ?_⟩
  · rw [← List.reverse_suffix, trimRight, List.reverse_reverse]
    exact h.suffix
  · rw [trimRight, List.getLast?_reverse]
    exact h.begins
  · intro t ht hends
    have hbegins : t.reverse.head? ≠ some pad := by rwa [List.head?_reverse]
    have hlongest := h.longest t.reverse (List.reverse_suffix.mpr ht) hbegins
    rw [List.length_reverse] at hlongest
    rwa [trimRight, List.length_reverse]

lemma rightpad_trimRight (pad : α) (l : List α) :
    List.rightpad l.length pad (trimRight pad l) = l := by
  have h := leftpad_trimLeft pad l.reverse
  rw [List.length_reverse] at h
  rw [trimRight, rightpad_reverse, h, List.reverse_reverse]

lemma trimRight_rightpad (h : s.getLast? ≠ some pad) (n : Nat) :
    trimRight pad (List.rightpad n pad s) = s := by
  rw [← List.head?_reverse] at h
  have hpad := rightpad_reverse n pad s.reverse
  rw [List.reverse_reverse] at hpad
  rw [trimRight, hpad, List.reverse_reverse, trimLeft_leftpad h, List.reverse_reverse]

end Padding
