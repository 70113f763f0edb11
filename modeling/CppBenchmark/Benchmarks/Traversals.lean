import CppBenchmark.Foundation.CellUpdates

/-!
# Traversal benchmarks

The benchmarks of the array of arrays differ in the nesting of their loops only, and the
one of cache associativity in the stride of its loop. Neither leaves its array.
-/

namespace CppBenchmark

open CellUpdates CellStore

namespace Traversals

section ArrayOfArray

/-- `std::iota`, of which a `std::int8_t` keeps the low byte. -/
def iota (n value : Nat) : List (BitVec 8) :=
  (List.range n).map (fun j => BitVec.ofNat 8 (value + j))

def arrayOfArray (dimension : Nat) : List (List (BitVec 8)) :=
  (List.range dimension).map (fun i => iota dimension (i * dimension))

/-- `iArrayOfArray[row][column] += row` -/
def addRow (cell : Nat × Nat) (x : BitVec 8) : BitVec 8 := x + BitVec.ofNat 8 cell.1

variable (f : Nat × Nat → BitVec 8 → BitVec 8)

def columnWise (dimension : Nat) (arrayOfArray : List (List (BitVec 8))) :
    Option (List (List (BitVec 8))) :=
  (List.range dimension).foldlM (fun arrayOfArray column =>
    (List.range dimension).foldlM (fun arrayOfArray row =>
      (nested (BitVec 8)).modify f arrayOfArray (row, column)) arrayOfArray) arrayOfArray

def rowWise (dimension : Nat) (arrayOfArray : List (List (BitVec 8))) :
    Option (List (List (BitVec 8))) :=
  (List.range dimension).foldlM (fun arrayOfArray row =>
    (List.range dimension).foldlM (fun arrayOfArray column =>
      (nested (BitVec 8)).modify f arrayOfArray (row, column)) arrayOfArray) arrayOfArray

/-- `RunBenchmark`, which traverses the same array as often as it is told. -/
def runTraversals (traverse : Nat → List (List (BitVec 8)) → Option (List (List (BitVec 8))))
    (dimension iterations : Nat) : Option (List (List (BitVec 8))) :=
  (List.range iterations).foldlM (fun arrayOfArray _ => traverse dimension arrayOfArray)
    (arrayOfArray dimension)

variable {f} {dimension : Nat}

def cells (dimension : Nat) : List (Nat × Nat) := List.range dimension ×ˢ List.range dimension

lemma columnWise_eq (dimension : Nat) (s : List (List (BitVec 8))) :
    columnWise f dimension s = (nested (BitVec 8)).modifyAll f
      ((List.range dimension).flatMap
        (fun column => (List.range dimension).map (fun row => (row, column)))) s := by
  rw [modifyAll_flatMap]
  simp only [modifyAll, List.foldlM_map]
  rfl

lemma rowWise_eq (dimension : Nat) (s : List (List (BitVec 8))) :
    rowWise f dimension s = (nested (BitVec 8)).modifyAll f
      (cells dimension) s := by
  change _ = (nested (BitVec 8)).modifyAll f ((List.range dimension).flatMap
    (fun row => (List.range dimension).map (fun column => (row, column)))) s
  rw [modifyAll_flatMap]
  simp only [modifyAll, List.foldlM_map]
  rfl

lemma nodup_cells (dimension : Nat) : (cells dimension).Nodup :=
  List.nodup_range.product List.nodup_range

lemma mem_cells {cell : Nat × Nat} :
    cell ∈ cells dimension ↔ cell.1 < dimension ∧ cell.2 < dimension := by
  rw [cells, List.mem_product, List.mem_range, List.mem_range]

/-- Both nestings meet every cell once. -/
lemma columns_perm_cells (dimension : Nat) :
    ((List.range dimension).flatMap
      (fun column => (List.range dimension).map (fun row => (row, column)))).Perm
        (cells dimension) := by
  have hcolumns : (List.range dimension).flatMap
      (fun column => (List.range dimension).map (fun row => (row, column))) =
        (cells dimension).map Prod.swap := by
    change _ = ((List.range dimension).flatMap
      (fun column => (List.range dimension).map (fun row => (column, row)))).map Prod.swap
    rw [List.map_flatMap]
    simp only [List.map_map]
    rfl
  have hnodup := nodup_cells dimension
  rw [hcolumns, List.perm_ext_iff_of_nodup (hnodup.map Prod.swap_injective) hnodup]
  intro cell
  rw [List.mem_map, mem_cells]
  constructor
  · rintro ⟨swapped, hswapped, rfl⟩
    exact (mem_cells.mp hswapped).symm
  · intro hcell
    exact ⟨cell.swap, mem_cells.mpr hcell.symm, Prod.swap_swap cell⟩

/-- A square array by its cells. -/
def table (dimension : Nat) (g : Nat → Nat → BitVec 8) : List (List (BitVec 8)) :=
  (List.range dimension).map (fun row => (List.range dimension).map (g row))

lemma get_table (g : Nat → Nat → BitVec 8) (cell : Nat × Nat) :
    (nested (BitVec 8)).get (table dimension g) cell =
      if cell.1 < dimension ∧ cell.2 < dimension then some (g cell.1 cell.2) else none := by
  dsimp only [nested, table]
  rw [List.getElem?_map]
  by_cases hrow : cell.1 < dimension
  · rw [List.getElem?_range hrow]
    by_cases hcolumn : cell.2 < dimension
    · rw [if_pos ⟨hrow, hcolumn⟩]
      change (List.map _ (List.range dimension))[cell.2]? = _
      rw [List.getElem?_map, List.getElem?_range hcolumn]
      rfl
    · rw [if_neg (fun h => hcolumn h.2)]
      apply List.getElem?_eq_none
      rw [List.length_map, List.length_range]
      exact Nat.not_lt.mp hcolumn
  · rw [if_neg (fun h => hrow h.1), List.getElem?_eq_none]
    · rfl
    · rw [List.length_range]
      exact Nat.not_lt.mp hrow

lemma shape_table (g g' : Nat → Nat → BitVec 8) :
    (nested (BitVec 8)).shape (table dimension g) = (nested (BitVec 8)).shape (table dimension g') := by
  simp [nested, table, Function.comp_def]

lemma arrayOfArray_eq_table (dimension : Nat) : arrayOfArray dimension =
    table dimension (fun row column => BitVec.ofNat 8 (row * dimension + column)) := rfl

lemma runTraversals_eq {traverse : Nat → List (List (BitVec 8)) → Option (List (List (BitVec 8)))}
    {met : List (Nat × Nat)} (hmet : met.Perm (cells dimension))
    (htraverse : ∀ s, traverse dimension s = (nested (BitVec 8)).modifyAll f met s)
    (iterations : Nat) :
    runTraversals traverse dimension iterations = some (table dimension (fun row column =>
      (f (row, column))^[iterations] (BitVec.ofNat 8 (row * dimension + column)))) := by
  have hloop : runTraversals traverse dimension iterations = (nested (BitVec 8)).modifyAll f
      ((List.range iterations).flatMap (fun _ => met)) (arrayOfArray dimension) := by
    rw [modifyAll_flatMap, runTraversals]
    simp only [htraverse]
  have hcount : ∀ cell, cell.1 < dimension ∧ cell.2 < dimension →
      ((List.range iterations).flatMap (fun _ => met)).count cell = iterations := by
    intro cell hcell
    rw [count_repeated, hmet.count_eq,
      List.count_eq_one_of_mem (nodup_cells dimension) (mem_cells.mpr hcell), Nat.mul_one]
  have hinside : ∀ cell ∈ (List.range iterations).flatMap (fun _ => met),
      ((nested (BitVec 8)).get (arrayOfArray dimension) cell).isSome := by
    intro cell hcell
    obtain ⟨-, -, hmem⟩ := List.mem_flatMap.mp hcell
    rw [arrayOfArray_eq_table, get_table, if_pos (mem_cells.mp (hmet.mem_iff.mp hmem))]
    rfl
  obtain ⟨t, hrun, hshape, hget⟩ := exists_modifyAll (nested (BitVec 8)) f _ _ hinside
  rw [hloop, hrun, Option.some_inj]
  apply (nested (BitVec 8)).ext _ _ (hshape.trans (shape_table _ _))
  intro cell
  rw [hget, arrayOfArray_eq_table, get_table, get_table]
  by_cases hcell : cell.1 < dimension ∧ cell.2 < dimension
  · rw [if_pos hcell, if_pos hcell, hcount cell hcell]
    rfl
  · rw [if_neg hcell, if_neg hcell]
    rfl

lemma iterate_addRow (cell : Nat × Nat) (n x : Nat) :
    (addRow cell)^[n] (BitVec.ofNat 8 x) = BitVec.ofNat 8 (x + n * cell.1) := by
  induction n with
  | zero => rw [Nat.zero_mul]; rfl
  | succ n ih =>
    rw [Function.iterate_succ_apply', ih, addRow, ← BitVec.ofNat_add, Nat.add_assoc, ← Nat.succ_mul]

/-- Whatever a traversal does to a cell, both nestings of the loops stay inside the array and
end in the same one after any number of traversals. What `+= row` leaves there is known. -/
theorem traversals_correct (dimension iterations : Nat) :
    (∀ f, runTraversals (columnWise f) dimension iterations =
        runTraversals (rowWise f) dimension iterations ∧
      runTraversals (rowWise f) dimension iterations = some (table dimension (fun row column =>
        (f (row, column))^[iterations] (BitVec.ofNat 8 (row * dimension + column))))) ∧
    runTraversals (columnWise addRow) dimension iterations = some (table dimension
      (fun row column => BitVec.ofNat 8 (row * dimension + column + iterations * row))) := by
  have hcolumn := fun f =>
    runTraversals_eq (f := f) (columns_perm_cells dimension) (columnWise_eq dimension) iterations
  have hrow := fun f =>
    runTraversals_eq (f := f) (List.Perm.refl _) (rowWise_eq dimension) iterations
  refine ⟨fun f => ⟨(hcolumn f).trans (hrow f).symm, hrow f⟩, ?_⟩
  rw [hcolumn]
  simp only [iterate_addRow]

example : runTraversals (columnWise addRow) 2 3 = some [[0, 1], [5, 6]] := by decide

end ArrayOfArray

section Associativity

/-- `32_MB` -/
def arraySize : Nat := 32 * 1024 * 1024

/-- The loop over `repeat`, from an index. The sum is a `std::size_t`. -/
def strideLoop (step : Nat) : Nat → Nat → List (BitVec 8) → Option (List (BitVec 8))
  | 0, _, array => some array
  | repeats + 1, i, array =>
    ((vector (BitVec 8)).modify (fun _ x => x + 1) array i).bind
      (strideLoop step repeats ((i + step) % 2 ^ 64 % arraySize))

/-- `CacheAssociativity_CacheAssociativity` -/
def cacheAssociativity (step iterations : Nat) : Option (List (BitVec 8)) :=
  (List.range iterations).foldlM (fun array _ => strideLoop step 1000 0 array)
    (List.replicate arraySize 0)

variable {step : Nat}

lemma arraySize_pos : 0 < arraySize := by decide

/-- The wrap of the index is that of the array. -/
lemma next_index (r : Nat) :
    (r * step % arraySize + step) % 2 ^ 64 % arraySize = (r + 1) * step % arraySize := by
  rw [Nat.mod_mod_of_dvd _ (by decide : arraySize ∣ 2 ^ 64), Nat.mod_add_mod, Nat.succ_mul]

lemma strideLoop_eq (step repeats r : Nat) (array : List (BitVec 8)) :
    strideLoop step repeats (r * step % arraySize) array =
      (vector (BitVec 8)).modifyAll (fun _ x => x + 1)
        ((List.range' r repeats).map (fun t => t * step % arraySize)) array := by
  induction repeats generalizing r array with
  | zero => rfl
  | succ repeats ih =>
    rw [strideLoop, next_index, List.range'_succ, List.map_cons, modifyAll, List.foldlM_cons]
    exact congrArg (Option.bind _) (funext (ih (r + 1)))

lemma strideLoop_stride (step repeats : Nat) (array : List (BitVec 8)) :
    strideLoop step repeats 0 array = (vector (BitVec 8)).modifyAll (fun _ x => x + 1)
      (stride arraySize step repeats) array := by
  have h := strideLoop_eq step repeats 0 array
  rw [Nat.zero_mul, Nat.zero_mod] at h
  rw [h, stride, List.range_eq_range']

lemma iterate_increment (n : Nat) : (fun x : BitVec 8 => x + 1)^[n] 0 = BitVec.ofNat 8 n := by
  induction n with
  | zero => rfl
  | succ n ih => rw [Function.iterate_succ_apply', ih, BitVec.ofNat_add]; rfl

/-- The loop never leaves its array. It comes back to where it was after the quotient of the
size by its greatest common divisor with the step, meets each cell of one such period equally
often up to once, and no other cell at all. -/
theorem cacheAssociativity_correct (step iterations : Nat) :
    ∃ array, cacheAssociativity step iterations = some array ∧ array.length = arraySize ∧
      (∀ r, array[r * step % arraySize]? = some (BitVec.ofNat 8 (iterations *
        (1000 / period arraySize step +
          if r % period arraySize step < 1000 % period arraySize step then 1 else 0)))) ∧
      ∀ i < arraySize, ¬arraySize.gcd step ∣ i → array[i]? = some 0 := by
  have hloop : cacheAssociativity step iterations = (vector (BitVec 8)).modifyAll
      (fun _ x => x + 1) ((List.range iterations).flatMap (fun _ => stride arraySize step 1000))
      (List.replicate arraySize 0) := by
    rw [modifyAll_flatMap, cacheAssociativity]
    simp only [strideLoop_stride]
  have hcell : ∀ i < arraySize, (vector (BitVec 8)).get (List.replicate arraySize 0) i = some 0 :=
    fun i hi => List.getElem?_replicate_of_lt hi
  have hinside : ∀ i ∈ (List.range iterations).flatMap (fun _ => stride arraySize step 1000),
      ((vector (BitVec 8)).get (List.replicate arraySize 0) i).isSome := by
    intro i hi
    obtain ⟨-, -, hmem⟩ := List.mem_flatMap.mp hi
    obtain ⟨r, -, rfl⟩ := List.mem_map.mp hmem
    rw [hcell _ (Nat.mod_lt _ arraySize_pos)]
    rfl
  obtain ⟨array, hrun, hshape, hget⟩ :=
    exists_modifyAll (vector (BitVec 8)) (fun _ x => x + 1) _ _ hinside
  refine ⟨array, hloop.trans hrun, hshape.trans List.length_replicate, fun r => ?_, ?_⟩
  · refine (hget (r * step % arraySize)).trans ?_
    rw [hcell _ (Nat.mod_lt _ arraySize_pos), count_repeated, count_stride arraySize_pos, Option.map_some,
      iterate_increment]
  · intro i hi hdvd
    refine (hget i).trans ?_
    rw [hcell i hi, count_repeated, List.count_eq_zero_of_not_mem (fun h => hdvd (gcd_dvd_of_mem_stride h))]
    rfl

end Associativity

end Traversals

end CppBenchmark
