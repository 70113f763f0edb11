import Mathlib.Data.List.Basic
import Mathlib.Tactic

/-!
# Pieces joined by a separator

Pieces are joined by a separator that none of them contains. Splitting the text at the
separator gives the pieces back.
-/

namespace SeparatedText

variable {α β γ : Type*} {sep : α} {pieces : List (List α)}

lemma intercalate_cons (sep : α) (piece : List α) (pieces : List (List α)) :
    [sep].intercalate (piece :: pieces) = piece ++ pieces.flatMap (fun p => sep :: p) := by
  induction pieces generalizing piece with
  | nil => simp
  | cons next pieces ih =>
    rw [List.intercalate_cons_cons, ih next, List.flatMap_cons, List.append_assoc]
    rfl

lemma intercalate_concat (sep : α) (pieces : List (List α)) (piece : List α) :
    [sep].intercalate (pieces ++ [piece]) = pieces.flatMap (fun p => p ++ [sep]) ++ piece := by
  induction pieces with
  | nil => simp
  | cons first pieces ih =>
    rw [List.cons_append, List.intercalate_cons_of_ne_nil (by simp), ih, List.flatMap_cons,
      List.append_assoc (first ++ [sep])]

/-- Pieces of one length, and a separator between any two of them. -/
lemma length_intercalate {n : Nat} (hlength : ∀ piece ∈ pieces, piece.length = n)
    (hne : pieces ≠ []) : ([sep].intercalate pieces).length = (n + 1) * pieces.length - 1 := by
  have hrest : ∀ rest : List (List α), (∀ piece ∈ rest, piece.length = n) →
      (rest.flatMap (fun p => sep :: p)).length = (n + 1) * rest.length := by
    intro rest h
    induction rest with
    | nil => rfl
    | cons piece rest ih =>
      rw [List.flatMap_cons, List.length_append, List.length_cons, h piece List.mem_cons_self,
        ih (fun p hp => h p (List.mem_cons_of_mem _ hp)), List.length_cons, Nat.mul_succ, Nat.add_comm]
  obtain ⟨piece, rest, rfl⟩ := List.exists_cons_of_ne_nil hne
  rw [intercalate_cons, List.length_append, hlength piece List.mem_cons_self,
    hrest rest (fun p hp => hlength p (List.mem_cons_of_mem _ hp)), List.length_cons, Nat.mul_succ]
  omega

/-- A text of pieces that are not empty does not begin with the separator. -/
lemma head?_intercalate_ne (hsep : ∀ piece ∈ pieces, sep ∉ piece)
    (hpieces : ∀ piece ∈ pieces, piece ≠ []) : ([sep].intercalate pieces).head? ≠ some sep := by
  cases pieces with
  | nil => simp
  | cons piece pieces =>
    obtain ⟨x, xs, rfl⟩ := List.exists_cons_of_ne_nil (hpieces piece List.mem_cons_self)
    rw [intercalate_cons, List.cons_append, List.head?_cons]
    intro heq
    apply hsep (x :: xs) List.mem_cons_self
    rw [Option.some.inj heq]
    exact List.mem_cons_self

lemma getLast?_intercalate_ne (hsep : ∀ piece ∈ pieces, sep ∉ piece)
    (hpieces : ∀ piece ∈ pieces, piece ≠ []) : ([sep].intercalate pieces).getLast? ≠ some sep := by
  induction pieces using List.reverseRecOn with
  | nil => simp
  | append_singleton pieces piece _ =>
    have hmem : piece ∈ pieces ++ [piece] := by simp
    rw [intercalate_concat, List.getLast?_append_of_ne_nil _ (hpieces piece hmem)]
    intro heq
    exact hsep piece hmem (List.mem_of_getLast? heq)

/-- Reading each piece of a joined text gives what reading each written piece gives. -/
lemma map_splitOn_intercalate [DecidableEq α] {write : β → List α} {read : List α → γ} {f : β → γ}
    {bs : List β} (hsep : ∀ b, sep ∉ write b) (hread : ∀ b, read (write b) = f b) (hbs : bs ≠ []) :
    (([sep].intercalate (bs.map write)).splitOn sep).map read = bs.map f := by
  have hpieces : ∀ piece ∈ bs.map write, sep ∉ piece :=
    List.forall_mem_map.mpr (fun b _ => hsep b)
  have hcomp : read ∘ write = f := by
    funext b
    exact hread b
  rw [List.splitOn_intercalate sep hpieces (by simpa using hbs), List.map_map, hcomp]

end SeparatedText
