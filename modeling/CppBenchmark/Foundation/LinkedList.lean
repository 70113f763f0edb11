import Mathlib.Data.List.Nodup

/-!
# Singly linked lists threaded through a link function

`ListAt null next a xs` says that following `next` from `a` visits exactly the nodes
`xs` and then reaches `null`. The links may live anywhere, in particular inside the
nodes themselves, so the frame rule asks only that the links of the visited nodes stay.
-/

namespace LinkedList

variable {α : Type*} {null : α} {next next' : α → α} {a : α} {xs ys : List α}

def ListAt (null : α) (next : α → α) : α → List α → Prop
  | a, [] => a = null
  | a, x :: xs => a = x ∧ x ≠ null ∧ ListAt null next (next x) xs

@[simp] lemma listAt_nil : ListAt null next a [] ↔ a = null := Iff.rfl

@[simp] lemma listAt_cons {x : α} :
    ListAt null next a (x :: xs) ↔ a = x ∧ x ≠ null ∧ ListAt null next (next x) xs := Iff.rfl

/-- The frame rule: only the links of the visited nodes matter. -/
lemma ListAt.congr (h : ListAt null next a xs) (hnext : ∀ x ∈ xs, next' x = next x) :
    ListAt null next' a xs := by
  induction xs generalizing a with
  | nil => exact h
  | cons x xs ih =>
    refine ⟨h.1, h.2.1, ?_⟩
    rw [hnext x List.mem_cons_self]
    exact ih h.2.2 (fun y hy => hnext y (List.mem_cons_of_mem x hy))

lemma ListAt.eq_null_iff (h : ListAt null next a xs) : a = null ↔ xs = [] := by
  cases xs with
  | nil => exact ⟨fun _ => rfl, fun _ => h⟩
  | cons x xs => exact ⟨fun ha => absurd (h.1.symm.trans ha) h.2.1, fun hx => by cases hx⟩

lemma ListAt.head_eq (h : ListAt null next a xs) (hne : a ≠ null) : xs.head? = some a := by
  cases xs with
  | nil => exact absurd h hne
  | cons x xs => simp [h.1]

lemma ListAt.tail (h : ListAt null next a xs) (hne : a ≠ null) :
    ListAt null next (next a) xs.tail := by
  cases xs with
  | nil => exact absurd h hne
  | cons x xs => simpa [h.1] using h.2.2

/-- There is one list from a node on. -/
lemma ListAt.unique (h : ListAt null next a xs) (h' : ListAt null next a ys) : xs = ys := by
  induction xs generalizing a ys with
  | nil => exact (h'.eq_null_iff.mp h).symm
  | cons x xs ih =>
    cases ys with
    | nil => exact absurd (h.1.symm.trans h') h.2.1
    | cons y ys =>
      obtain rfl : x = y := h.1.symm.trans h'.1
      rw [ih h.2.2 h'.2.2]

/-- Linking a new node in front of a list that does not contain it. -/
lemma ListAt.push (h : ListAt null next a xs) {x : α} (hx : x ≠ null) (hlink : next' x = a)
    (hnext : ∀ y ∈ xs, next' y = next y) : ListAt null next' x (x :: xs) :=
  ⟨rfl, hx, hlink ▸ h.congr hnext⟩

end LinkedList
