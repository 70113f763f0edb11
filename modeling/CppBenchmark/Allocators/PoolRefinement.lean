import CppBenchmark.Allocators.BlockStack
import CppBenchmark.Allocators.MemoryPool

/-!
# The pool stores a stack of blocks

`Represents` relates a pool and the heap to a `BlockStack` of addresses: following the
head and the links stored inside the blocks gives exactly the free blocks in order. One
lemma for each operation says what it does to the represented stack, and
`Represents.congr` is the frame: only the link bytes of the free blocks matter.
-/

namespace CppBenchmark

open ByteMemory LinkedList MemoryPoolFixedSize

/-- What an array `new` that returned `base` guarantees of an arena of `n` blocks. -/
structure ValidArena (blockSize base n : Nat) : Prop where
  base_pos : 0 < base
  end_lt : base + n * blockSize < 2 ^ 64

structure Represents (blockSize : Nat) (pool : MemoryPoolFixedSize) (heap : Heap)
    (stack : BlockStack Nat) : Prop where
  blocks_eq : stack.blocks = pool.blockStarts blockSize
  begin_pos : 0 < pool.memoryBlock.numberOfBlocks → 0 < pool.memoryBlock.beginPtr
  arena_lt :
    pool.memoryBlock.beginPtr + pool.memoryBlock.numberOfBlocks * blockSize < 2 ^ 64
  list : ListAt 0 heap.loadNext pool.head stack.free

namespace Represents

variable {blockSize size x : Nat} {pool : MemoryPoolFixedSize} {heap heap' : Heap}
  {stack : BlockStack Nat}

lemma init (blockSize : Nat) (heap : Heap) : Represents blockSize MemoryPoolFixedSize.init heap
    (BlockStack.reset [] List.nodup_nil) where
  blocks_eq := rfl
  begin_pos h := absurd h (Nat.lt_irrefl 0)
  arena_lt := by simp [MemoryPoolFixedSize.init, MemoryBlock.beginPtr]
  list := rfl

lemma endPtr_eq (h : Represents blockSize pool heap stack) :
    pool.memoryBlock.endPtr blockSize =
      pool.memoryBlock.beginPtr + pool.memoryBlock.numberOfBlocks * blockSize :=
  Nat.mod_eq_of_lt h.arena_lt

lemma mem_blockStarts (h : Represents blockSize pool heap stack) (hx : x ∈ stack.blocks) :
    x ∈ pool.blockStarts blockSize := h.blocks_eq ▸ hx

lemma block_bounds (h : Represents blockSize pool heap stack) (hx : x ∈ stack.blocks) :
    pool.memoryBlock.beginPtr ≤ x ∧ x + blockSize ≤ pool.memoryBlock.endPtr blockSize := by
  rw [h.endPtr_eq]
  exact blockStarts_bounds (h.mem_blockStarts hx)

lemma block_pos (h : Represents blockSize pool heap stack) (hx : x ∈ stack.blocks) : 0 < x := by
  obtain ⟨i, hi, rfl⟩ := MemoryPoolFixedSize.mem_blockStarts.mp (h.mem_blockStarts hx)
  have := h.begin_pos (by omega)
  omega

lemma block_lt (h : Represents blockSize pool heap stack) (hx : x ∈ stack.blocks) :
    x < 2 ^ 64 := by
  have hb := h.block_bounds hx
  have ha := h.arena_lt
  rw [h.endPtr_eq] at hb
  omega

lemma head_lt (h : Represents blockSize pool heap stack) : pool.head < 2 ^ 64 := by
  by_cases hhead : pool.head = 0
  · omega
  · have htop := h.list.head_eq hhead
    exact h.block_lt (stack.free_subset _ (List.mem_of_mem_head? htop))

lemma top_eq_none (h : Represents blockSize pool heap stack) (hnone : stack.top = none) :
    pool.head = 0 :=
  h.list.eq_null_iff.mpr (List.head?_eq_none_iff.mp hnone)

lemma top_eq_some (h : Represents blockSize pool heap stack) (htop : stack.top = some x) :
    pool.head = x ∧ x ≠ 0 := by
  have hlist := h.list
  rw [BlockStack.top_eq_some htop] at hlist
  exact ⟨hlist.1, hlist.2.1⟩

theorem congr (h : Represents blockSize pool heap stack)
    (hframe : ∀ p ∈ stack.free, ∀ y, p ≤ y → y < p + sizeofNode →
      heap'.memory y = heap.memory y) :
    Represents blockSize pool heap' stack where
  blocks_eq := h.blocks_eq
  begin_pos := h.begin_pos
  arena_lt := h.arena_lt
  list := h.list.congr (fun p hp => Heap.loadNext_congr (hframe p hp))

lemma takeBlock_of_top (h : Represents blockSize pool heap stack) (hsize : size ≤ blockSize)
    (htop : stack.top = some x) :
    takeBlock blockSize size pool heap = (x, { pool with head := heap.loadNext x }) := by
  obtain ⟨hhead, hx⟩ := h.top_eq_some htop
  rw [takeBlock, if_pos ⟨hsize, hhead ▸ hx⟩, hhead]

lemma takeBlock_none (h : Represents blockSize pool heap stack)
    (hnone : blockSize < size ∨ stack.top = none) :
    takeBlock blockSize size pool heap = (0, pool) := by
  rw [takeBlock, if_neg]
  rintro ⟨hsize, hhead⟩
  rcases hnone with hlt | htop
  · omega
  · exact hhead (h.top_eq_none htop)

theorem pop (h : Represents blockSize pool heap stack) (htop : stack.top = some x) :
    Represents blockSize { pool with head := heap.loadNext x } heap stack.pop where
  blocks_eq := h.blocks_eq
  begin_pos := h.begin_pos
  arena_lt := h.arena_lt
  list := by
    obtain ⟨hhead, hx⟩ := h.top_eq_some htop
    have htail := h.list.tail (by rw [hhead]; exact hx)
    rw [hhead] at htail
    rw [BlockStack.free_pop]
    exact htail

lemma returnBlock_of_mem (h : Represents blockSize pool heap stack) (hx : x ∈ stack.blocks) :
    returnBlock blockSize x pool heap =
      (true, { pool with head := x }, heap.storeNext x pool.head) := by
  obtain ⟨hlow, hhigh⟩ := h.block_bounds hx
  rw [returnBlock, if_pos ⟨hlow, by omega⟩]

theorem push (h : Represents blockSize pool heap stack) (hb : sizeofNode ≤ blockSize)
    (hx : x ∈ stack.blocks) (hfree : x ∉ stack.free) :
    Represents blockSize { pool with head := x } (heap.storeNext x pool.head)
      (stack.push x hx hfree) where
  blocks_eq := h.blocks_eq
  begin_pos := h.begin_pos
  arena_lt := h.arena_lt
  list := by
    have hlink : (heap.storeNext x pool.head).loadNext x = pool.head :=
      Heap.loadNext_storeNext heap h.head_lt
    have hnext : ∀ y ∈ stack.free, (heap.storeNext x pool.head).loadNext y = heap.loadNext y := by
      intro y hy
      have hne : y ≠ x := fun hyx => hfree (hyx ▸ hy)
      have hapart := blockStarts_apart (h.mem_blockStarts (stack.free_subset y hy))
        (h.mem_blockStarts hx) hne
      exact Heap.loadNext_storeNext_disjoint heap (by omega)
    exact h.list.push (h.block_pos hx).ne' hlink hnext

end Represents

section Reset

variable {blockSize last fuel fuel' it pNode : Nat} {heap : Heap}

lemma linkBlocks_mono {r : Nat × Heap} (hfuel : fuel ≤ fuel')
    (h : linkBlocks blockSize last fuel it pNode heap = some r) :
    linkBlocks blockSize last fuel' it pNode heap = some r := by
  induction fuel generalizing fuel' it pNode heap with
  | zero => cases h
  | succ fuel ih =>
    obtain ⟨fuel', rfl⟩ : ∃ k, fuel' = k + 1 := ⟨fuel' - 1, by omega⟩
    rw [linkBlocks] at h ⊢
    split_ifs at h ⊢ with hlast
    · exact ih (by omega) h
    · exact h

lemma resetMemoryPool_mono {fresh : Option Nat} {n : Nat} {pool : MemoryPoolFixedSize}
    {r : Completion × MemoryPoolFixedSize × Heap} (hfuel : fuel ≤ fuel')
    (h : resetMemoryPool blockSize fuel fresh n pool heap = some r) :
    resetMemoryPool blockSize fuel' fresh n pool heap = some r := by
  cases fresh with
  | none => exact h
  | some base =>
    simp only [resetMemoryPool, MemoryBlock.allocate] at h ⊢
    split at h
    · cases h
    · next hlink =>
      rw [linkBlocks_mono hfuel hlink]
      exact h

/-- Block `j + 1` from `a` on is block `j` from the next block on. -/
lemma block_succ (blockSize a j : Nat) :
    a + (j + 1) * blockSize = a + blockSize + j * blockSize := by
  rw [Nat.succ_mul, Nat.add_assoc, Nat.add_comm blockSize]

lemma map_blocks_succ (blockSize a k : Nat) :
    (List.range (k + 1)).map (fun j => a + j * blockSize) =
      a :: (List.range k).map (fun j => a + blockSize + j * blockSize) := by
  rw [List.range_succ_eq_map, List.map_cons, List.map_map, Nat.zero_mul, Nat.add_zero]
  congr 1
  apply List.map_congr_left
  intro j _
  exact block_succ blockSize a j

/-- The loop links `k` blocks from `pNode` on and writes only inside them. -/
lemma linkBlocks_spec (hb : sizeofNode ≤ blockSize) (k : Nat) :
    ∀ (pNode : Nat) (heap : Heap) (fuel : Nat), k < fuel →
      pNode + (k + 1) * blockSize < 2 ^ 64 →
    ∃ heap', linkBlocks blockSize (pNode + (k + 1) * blockSize) fuel (pNode + blockSize) pNode heap =
        some (pNode + k * blockSize, heap') ∧
      (∀ j, j < k → heap'.loadNext (pNode + j * blockSize) = pNode + (j + 1) * blockSize) ∧
      (∀ x, x < pNode ∨ pNode + k * blockSize ≤ x → heap'.memory x = heap.memory x) ∧
      heap'.stores = ((List.range k).map (fun j => pNode + j * blockSize)).reverse ++ heap.stores := by
  induction k with
  | zero =>
    intro pNode heap fuel hfuel _
    obtain ⟨fuel, rfl⟩ : ∃ m, fuel = m + 1 := ⟨fuel - 1, by omega⟩
    exact ⟨heap, by simp [linkBlocks], by simp, fun _ _ => rfl, by simp⟩
  | succ k ih =>
    -- The first link is written at `pNode`; the others start a block later and leave it.
    intro pNode heap fuel hfuel hlt
    obtain ⟨fuel, rfl⟩ : ∃ m, fuel = m + 1 := ⟨fuel - 1, by omega⟩
    have hpos := pos_of_sizeofNode_le hb
    have hsplit := block_succ blockSize pNode (k + 1)
    have hkpos : 0 < (k + 1) * blockSize := Nat.mul_pos (Nat.succ_pos k) hpos
    have hle : blockSize ≤ (k + 1) * blockSize := Nat.le_mul_of_pos_left _ (Nat.succ_pos k)
    have hnext : (heap.storeNext pNode (pNode + blockSize)).loadNext pNode = pNode + blockSize :=
      Heap.loadNext_storeNext heap (by omega)
    have hit : ptrAdd (pNode + blockSize) blockSize = pNode + blockSize + blockSize :=
      Nat.mod_eq_of_lt (by omega)
    obtain ⟨heap', hrun, hlinks, hframe, hstores⟩ :=
      ih (pNode + blockSize) (heap.storeNext pNode (pNode + blockSize)) fuel (by omega) (by omega)
    refine ⟨heap', ?_, ?_, ?_, ?_⟩
    · rw [linkBlocks, if_pos (by omega)]
      dsimp only
      rw [hnext, hit, hsplit, hrun, block_succ]
    · intro j hj
      cases j with
      | zero =>
        have hout : heap'.loadNext pNode =
            (heap.storeNext pNode (pNode + blockSize)).loadNext pNode :=
          Heap.loadNext_congr (fun x _ hx => hframe x (Or.inl (by omega)))
        rw [Nat.zero_mul, Nat.add_zero, hout, hnext]
        ring
      | succ j => rw [block_succ, block_succ _ _ (j + 1), hlinks j (by omega)]
    · intro x hx
      rw [block_succ] at hx
      rw [hframe x (by omega)]
      exact Heap.storeNext_outside heap (by omega)
    · rw [hstores, Heap.stores_storeNext, map_blocks_succ, List.reverse_cons, List.append_assoc]
      rfl

lemma listAt_of_links {next : Nat → Nat} (k : Nat) : ∀ a, 0 < a →
    (∀ j, j < k → next (a + j * blockSize) = a + (j + 1) * blockSize) →
    next (a + k * blockSize) = 0 →
    ListAt 0 next a ((List.range (k + 1)).map (fun j => a + j * blockSize)) := by
  induction k with
  | zero =>
    intro a ha _ hlast
    simpa [ha.ne'] using hlast
  | succ k ih =>
    intro a ha hlinks hlast
    have hfirst : next a = a + blockSize := by simpa using hlinks 0 (Nat.succ_pos k)
    rw [map_blocks_succ]
    refine ⟨rfl, ha.ne', ?_⟩
    rw [hfirst]
    apply ih (a + blockSize) (by omega)
    · intro j hj
      rw [← block_succ, ← block_succ, hlinks (j + 1) (by omega)]
    · rw [← block_succ, hlast]

/-- A reset of at least one block terminates; the pool then stores the stack of all its
blocks, and only bytes of the new arena were written. -/
theorem resetMemoryPool_spec (hb : sizeofNode ≤ blockSize) {base n : Nat} (hn : 1 ≤ n)
    (harena : ValidArena blockSize base n) (pool : MemoryPoolFixedSize) (heap : Heap)
    (hfuel : n ≤ fuel) :
    ∃ heap', resetMemoryPool blockSize fuel (some base) n pool heap =
        some (.returned, ⟨base, ⟨base, n⟩⟩, heap') ∧
      (∃ hnodup, Represents blockSize ⟨base, ⟨base, n⟩⟩ heap'
        (BlockStack.reset (blockStarts blockSize ⟨base, ⟨base, n⟩⟩) hnodup)) ∧
      (∀ x, x < base ∨ base + n * blockSize ≤ x → heap'.memory x = heap.memory x) ∧
      heap'.stores = (blockStarts blockSize ⟨base, ⟨base, n⟩⟩).reverse ++ heap.stores := by
  obtain ⟨k, rfl⟩ : ∃ k, n = k + 1 := ⟨n - 1, by omega⟩
  have hbase := harena.base_pos
  have hend := harena.end_lt
  have hsplit : (k + 1) * blockSize = k * blockSize + blockSize := by ring
  have hle : blockSize ≤ (k + 1) * blockSize := Nat.le_mul_of_pos_left _ (Nat.succ_pos k)
  obtain ⟨heap', hrun, hlinks, hframe, hstores⟩ := linkBlocks_spec hb k base
    ((heap.deleteArray pool.memoryBlock.blocks).newArray base) fuel (by omega) hend
  refine ⟨heap'.storeNext (base + k * blockSize) 0, ?_, ?_, ?_, ?_⟩
  · have hit : ptrAdd base blockSize = base + blockSize := Nat.mod_eq_of_lt (by omega)
    have hlast : ptrAdd base ((k + 1) * blockSize) = base + (k + 1) * blockSize :=
      Nat.mod_eq_of_lt hend
    simp only [resetMemoryPool, MemoryBlock.allocate, MemoryBlock.beginPtr, MemoryBlock.endPtr,
      hit, hlast, hrun]
  · refine ⟨blockStarts_nodup (pos_of_sizeofNode_le hb) _, rfl, fun _ => hbase, hend, ?_⟩
    apply listAt_of_links k base hbase _ (Heap.loadNext_storeNext heap' (by norm_num))
    intro j hj
    have hjk : (j + 1) * blockSize ≤ k * blockSize := Nat.mul_le_mul_right _ hj
    have hj' : (j + 1) * blockSize = j * blockSize + blockSize := by ring
    rw [Heap.loadNext_storeNext_disjoint heap' (by omega), hlinks j hj]
  · intro x hx
    rw [Heap.storeNext_outside heap' (by omega), hframe x (by omega)]
    simp
  · rw [Heap.stores_storeNext, hstores]
    simp [blockStarts, arenaBlocks, MemoryBlock.beginPtr, List.range_succ]

/-- What a reset that returned did, whatever fuel it ran with. -/
theorem resetMemoryPool_returned (hb : sizeofNode ≤ blockSize) {base n : Nat} (hn : 1 ≤ n)
    (harena : ValidArena blockSize base n) {pool pool' : MemoryPoolFixedSize} {heap' : Heap}
    {completion : Completion}
    (h : resetMemoryPool blockSize fuel (some base) n pool heap =
      some (completion, pool', heap')) :
    completion = .returned ∧ pool' = ⟨base, ⟨base, n⟩⟩ ∧
      (∃ hnodup, Represents blockSize pool' heap'
        (BlockStack.reset (pool'.blockStarts blockSize) hnodup)) ∧
      (∀ x, x < base ∨ base + n * blockSize ≤ x → heap'.memory x = heap.memory x) ∧
      heap'.stores = (pool'.blockStarts blockSize).reverse ++ heap.stores := by
  obtain ⟨heap'', hrun, hrep, hframe, hstores⟩ :=
    resetMemoryPool_spec hb hn harena pool heap (Nat.le_max_right fuel n)
  rw [resetMemoryPool_mono (Nat.le_max_left fuel n) h, Option.some.injEq, Prod.mk.injEq,
    Prod.mk.injEq] at hrun
  obtain ⟨rfl, rfl, rfl⟩ := hrun
  exact ⟨rfl, rfl, hrep, hframe, hstores⟩

end Reset

end CppBenchmark
