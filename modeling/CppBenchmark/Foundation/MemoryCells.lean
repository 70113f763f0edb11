import CppBenchmark.Foundation.ByteMemory
import CppBenchmark.Foundation.History

/-!
# Disjoint cells of a memory

Cells are ranges of addresses that do not overlap. A run of stores leaves in every cell the
value last stored there, and leaves every address outside the cells alone.
-/

namespace MemoryCells

open ByteMemory History

/-- Ranges of addresses, no two of which overlap. -/
structure Cells (κ : Type*) where
  start : κ → Nat
  size : κ → Nat
  apart : ∀ k l, k ≠ l → start k + size k ≤ start l ∨ start l + size l ≤ start k

variable {κ : Type*} {cells : Cells κ} {k : κ} {x : Nat}

structure Store (cells : Cells κ) where
  cell : κ
  value : List UInt8
  value_length : value.length = cells.size cell

def load (cells : Cells κ) (k : κ) (m : Memory) : List UInt8 :=
  m.read (cells.start k) (cells.size k)

def Store.apply (s : Store cells) (m : Memory) : Memory := m.write (cells.start s.cell) s.value

def applyAll (stores : List (Store cells)) (m : Memory) : Memory :=
  stores.foldl (fun m s => s.apply m) m

lemma applyAll_concat (stores : List (Store cells)) (s : Store cells) (m : Memory) :
    applyAll (stores ++ [s]) m = s.apply (applyAll stores m) := by
  rw [applyAll, List.foldl_append]
  rfl

lemma load_apply_self (s : Store cells) (m : Memory) : load cells s.cell (s.apply m) = s.value := by
  have h := Memory.read_write m (cells.start s.cell) s.value
  rw [s.value_length] at h
  exact h

lemma load_apply_of_ne {s : Store cells} (h : s.cell ≠ k) (m : Memory) :
    load cells k (s.apply m) = load cells k m := by
  apply Memory.read_write_disjoint
  rw [s.value_length]
  exact Or.symm (cells.apart s.cell k h)

/-- A cell holds the value last stored in it. -/
theorem load_applyAll [DecidableEq κ] (stores : List (Store cells)) (k : κ) (m : Memory) :
    load cells k (applyAll stores m) =
      ((mostRecent Store.cell stores k).map Store.value).getD (load cells k m) := by
  induction stores using List.reverseRecOn with
  | nil => rfl
  | append_singleton stores s ih =>
    rw [applyAll_concat, mostRecent_concat]
    by_cases h : s.cell = k
    · subst h
      rw [if_pos rfl, load_apply_self]
      rfl
    · rw [if_neg h, load_apply_of_ne h, ih]

theorem applyAll_outside (stores : List (Store cells)) (m : Memory)
    (hx : ∀ s ∈ stores, x < cells.start s.cell ∨ cells.start s.cell + cells.size s.cell ≤ x) :
    applyAll stores m x = m x := by
  induction stores using List.reverseRecOn with
  | nil => rfl
  | append_singleton stores s ih =>
    rw [List.forall_mem_append, List.forall_mem_singleton] at hx
    rw [applyAll_concat, Store.apply, Memory.write_outside, ih hx.1]
    rw [s.value_length]
    exact hx.2

end MemoryCells
