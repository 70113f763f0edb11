import CppBenchmark.Allocators.PoolRefinement

/-!
# What a reset does for each block count

A reset whose array `new` succeeded terminates, writes inside the arena and leaves
exactly as many blocks to take as were asked for, when that is at least one. For no
blocks the loop starts past the end of the arena, and the last link is stored outside.
-/

namespace CppBenchmark

open MemoryPoolFixedSize

/-- The results of consecutive `TakeBlock` calls of the given sizes. -/
def takeBlocks (blockSize : Nat) (heap : Heap) : List Nat → MemoryPoolFixedSize → List Nat
  | [], _ => []
  | size :: sizes, pool =>
    let (p, pool) := takeBlock blockSize size pool heap
    p :: takeBlocks blockSize heap sizes pool

/-- What is expected of a reset to `n` blocks that led to `pool'` and `heap'`. -/
structure ResetOutcome (blockSize n : Nat) (heap : Heap) (pool' : MemoryPoolFixedSize)
    (heap' : Heap) : Prop where
  stores : ∃ written, heap'.stores = written ++ heap.stores ∧ ∀ p ∈ written,
    pool'.memoryBlock.beginPtr ≤ p ∧ p + sizeofNode ≤ pool'.memoryBlock.endPtr blockSize
  memory : ∀ x, heap'.memory x ≠ heap.memory x →
    pool'.memoryBlock.beginPtr ≤ x ∧ x < pool'.memoryBlock.endPtr blockSize
  takes : ∀ sizes, (∀ size ∈ sizes, size ≤ blockSize) → ∀ i, i < sizes.length →
    ((takeBlocks blockSize heap' sizes pool').getD i 0 ≠ 0 ↔ i < n)

def ResetIsTotal (blockSize base n : Nat) (pool : MemoryPoolFixedSize) (heap : Heap) : Prop :=
  ∃ fuel pool' heap', resetMemoryPool blockSize fuel (some base) n pool heap =
    some (.returned, pool', heap') ∧ ResetOutcome blockSize n heap pool' heap'

section Takes

variable {blockSize : Nat} {pool : MemoryPoolFixedSize} {heap : Heap} {stack : BlockStack Nat}

/-- Consecutive calls hand out the free blocks in order, and then `nullptr`. -/
theorem Represents.takeBlocks_eq (h : Represents blockSize pool heap stack) (sizes : List Nat)
    (hsizes : ∀ size ∈ sizes, size ≤ blockSize) :
    takeBlocks blockSize heap sizes pool = stack.free.take sizes.length ++
      List.replicate (sizes.length - stack.free.length) 0 := by
  induction sizes generalizing pool stack with
  | nil => simp [takeBlocks]
  | cons size sizes ih =>
    have hsize := hsizes size List.mem_cons_self
    have hrest : ∀ size ∈ sizes, size ≤ blockSize :=
      fun size hmem => hsizes size (List.mem_cons_of_mem _ hmem)
    unfold takeBlocks
    cases htop : stack.top with
    | none =>
      have hfree : stack.free = [] := List.head?_eq_none_iff.mp htop
      rw [h.takeBlock_none (Or.inr htop)]
      dsimp only
      rw [ih h hrest, hfree]
      simp [List.replicate_succ]
    | some x =>
      rw [h.takeBlock_of_top hsize htop]
      dsimp only
      rw [ih (h.pop htop) hrest, BlockStack.free_pop, BlockStack.top_eq_some htop]
      simp

lemma Represents.takeBlocks_getD (h : Represents blockSize pool heap stack) {sizes : List Nat}
    (hsizes : ∀ size ∈ sizes, size ≤ blockSize) {i : Nat} (hi : i < sizes.length) :
    (takeBlocks blockSize heap sizes pool).getD i 0 ≠ 0 ↔ i < stack.free.length := by
  rw [h.takeBlocks_eq sizes hsizes, List.getD_eq_getElem?_getD, List.getElem?_append]
  by_cases hfree : i < stack.free.length
  · have hpos := h.block_pos (stack.free_subset _ (List.getElem_mem hfree))
    rw [if_pos (by simp; omega), List.getElem?_take_of_lt hi, List.getElem?_eq_getElem hfree]
    simpa [hfree] using hpos.ne'
  · rw [if_neg (by simp; omega)]
    rw [List.getElem?_replicate]
    split_ifs <;> simp [hfree]

end Takes

variable {blockSize base n : Nat}

lemma not_resetIsTotal_zero (harena : ValidArena blockSize base 0) (pool : MemoryPoolFixedSize)
    (heap : Heap) : ¬ResetIsTotal blockSize base 0 pool heap := by
  rintro ⟨fuel, pool', heap', hreset, houtcome⟩
  obtain ⟨rfl, -, -, pNode, links, hstores⟩ := resetMemoryPool_frame hreset
  obtain ⟨written, hwritten, hinside⟩ := houtcome.stores
  have hmem : pNode ∈ written := by
    rw [hstores] at hwritten
    rw [← List.append_cancel_right hwritten]
    exact List.mem_cons_self
  have hbounds := hinside pNode hmem
  have hlt := harena.end_lt
  rw [Nat.zero_mul, Nat.add_zero] at hlt
  have hend : MemoryBlock.endPtr blockSize ⟨base, 0⟩ = base := by
    unfold MemoryBlock.endPtr ptrAdd
    rw [Nat.zero_mul, Nat.add_zero, Nat.mod_eq_of_lt hlt]
  simp only [hend, MemoryBlock.beginPtr, sizeofNode] at hbounds
  omega

/-- A reset does what is expected exactly when at least one block is asked for. -/
theorem resetIsTotal_iff (hb : sizeofNode ≤ blockSize) (harena : ValidArena blockSize base n)
    (pool : MemoryPoolFixedSize) (heap : Heap) :
    ResetIsTotal blockSize base n pool heap ↔ 1 ≤ n := by
  constructor
  · intro htotal
    by_contra hn
    obtain rfl : n = 0 := by omega
    exact not_resetIsTotal_zero harena pool heap htotal
  · intro hn
    obtain ⟨heap', hreset, ⟨hnodup, hrep⟩, hframe, hstores⟩ :=
      resetMemoryPool_spec hb hn harena pool heap (Nat.le_refl n)
    refine ⟨n, _, heap', hreset, ?_, ?_, ?_⟩
    · refine ⟨_, hstores, ?_⟩
      intro p hp
      have hbounds := hrep.block_bounds (List.mem_reverse.mp hp)
      omega
    · intro x hx
      rw [hrep.endPtr_eq]
      change base ≤ x ∧ x < base + n * blockSize
      by_contra hout
      exact hx (hframe x (by omega))
    · intro sizes hsizes i hi
      rw [hrep.takeBlocks_getD hsizes hi]
      simp [blockStarts, arenaBlocks]

theorem resetIsTotal_two : ResetIsTotal 32 4096 2 MemoryPoolFixedSize.init
    ⟨fun _ => 0, [], [], []⟩ := by
  apply (resetIsTotal_iff (by decide) ⟨by norm_num, by norm_num⟩ _ _).mpr
  norm_num

theorem reset_to_no_blocks : ¬ResetIsTotal 32 4096 0 MemoryPoolFixedSize.init
    ⟨fun _ => 0, [], [], []⟩ :=
  not_resetIsTotal_zero ⟨by norm_num, by norm_num⟩ _ _

end CppBenchmark
