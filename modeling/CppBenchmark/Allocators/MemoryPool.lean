import CppBenchmark.Foundation.ByteMemory
import CppBenchmark.Foundation.LinkedList

/-!
# The fixed-size memory pool

`MemoryBlock` owns the arena, an array of blocks of `blockSize` bytes, and
`MemoryPoolFixedSize` threads the free blocks on a list whose links are stored in the
blocks themselves. Pointers are 64-bit addresses, `0` is `nullptr`, and the outcome of
the array `new` is an argument: an address, or `none` when it throws.
-/

namespace CppBenchmark

open ByteMemory

/-- `sizeof(Node)`: a node holds one pointer. -/
def sizeofNode : Nat := 8

lemma pos_of_sizeofNode_le {blockSize : Nat} (hb : sizeofNode ≤ blockSize) : 0 < blockSize := by
  unfold sizeofNode at hb
  omega

def ptrAdd (p k : Nat) : Nat := (p + k) % 2 ^ 64

/-- The heap: the bytes, the arrays obtained from `new[]` and not yet deleted, the
`delete[]` calls on anything else, and where `Node::next` was written, latest first. -/
structure Heap where
  memory : Memory
  arrays : List Nat
  badDeletes : List Nat
  stores : List Nat

namespace Heap

def deleteArray (heap : Heap) (p : Nat) : Heap :=
  if p = 0 then heap
  else if p ∈ heap.arrays then { heap with arrays := heap.arrays.erase p }
  else { heap with badDeletes := p :: heap.badDeletes }

/-- A `new[]` that returned the address `p`. The bytes of the array are not initialised. -/
def newArray (heap : Heap) (p : Nat) : Heap := { heap with arrays := p :: heap.arrays }

def loadNext (heap : Heap) (p : Nat) : Nat := heap.memory.readLE p sizeofNode

def storeNext (heap : Heap) (p v : Nat) : Heap :=
  { heap with memory := heap.memory.writeLE p sizeofNode v, stores := p :: heap.stores }

def setByte (heap : Heap) (a : Nat) (v : UInt8) : Heap :=
  { heap with memory := heap.memory.write a [v] }

@[simp] lemma memory_deleteArray (heap : Heap) (p : Nat) :
    (heap.deleteArray p).memory = heap.memory := by
  unfold deleteArray
  split_ifs <;> rfl

@[simp] lemma stores_deleteArray (heap : Heap) (p : Nat) :
    (heap.deleteArray p).stores = heap.stores := by
  unfold deleteArray
  split_ifs <;> rfl

@[simp] lemma memory_newArray (heap : Heap) (p : Nat) : (heap.newArray p).memory = heap.memory := rfl

@[simp] lemma stores_newArray (heap : Heap) (p : Nat) : (heap.newArray p).stores = heap.stores := rfl

@[simp] lemma stores_storeNext (heap : Heap) (p v : Nat) :
    (heap.storeNext p v).stores = p :: heap.stores := rfl

@[simp] lemma stores_setByte (heap : Heap) (a : Nat) (v : UInt8) :
    (heap.setByte a v).stores = heap.stores := rfl

lemma storeNext_outside (heap : Heap) {p v x : Nat} (h : x < p ∨ p + sizeofNode ≤ x) :
    (heap.storeNext p v).memory x = heap.memory x :=
  Memory.writeLE_outside _ h

lemma setByte_ne (heap : Heap) {a x : Nat} {v : UInt8} (h : x ≠ a) :
    (heap.setByte a v).memory x = heap.memory x :=
  Memory.write_outside _ (by simp only [List.length_singleton]; omega)

lemma loadNext_storeNext (heap : Heap) {p v : Nat} (hv : v < 2 ^ 64) :
    (heap.storeNext p v).loadNext p = v := by
  rw [loadNext, storeNext, Memory.readLE_writeLE, sizeofNode, Nat.mod_eq_of_lt (by omega)]

lemma loadNext_congr {heap heap' : Heap} {p : Nat}
    (h : ∀ x, p ≤ x → x < p + sizeofNode → heap'.memory x = heap.memory x) :
    heap'.loadNext p = heap.loadNext p :=
  Memory.readLE_congr h

lemma loadNext_storeNext_disjoint (heap : Heap) {p q v : Nat}
    (h : q + sizeofNode ≤ p ∨ p + sizeofNode ≤ q) :
    (heap.storeNext p v).loadNext q = heap.loadNext q :=
  Memory.readLE_writeLE_disjoint _ h

attribute [irreducible] loadNext

end Heap

inductive Completion
  | returned
  | threw
  deriving DecidableEq

/-- The addresses of `n` blocks from `base` on, in order. -/
def arenaBlocks (blockSize base n : Nat) : List Nat :=
  (List.range n).map (fun i => base + i * blockSize)

structure MemoryBlock where
  blocks : Nat
  numberOfBlocks : Nat

namespace MemoryBlock

/-- `MemoryBlock::Allocate`: the old arena is deleted and the count stored before the
array `new` runs, whose outcome is `fresh`. -/
def allocate (fresh : Option Nat) (iNumberOfBlocks : Nat) (block : MemoryBlock) (heap : Heap) :
    Completion × MemoryBlock × Heap :=
  let heap := heap.deleteArray block.blocks
  let block := { block with numberOfBlocks := iNumberOfBlocks }
  match fresh with
  | none => (.threw, block, heap)
  | some p => (.returned, { block with blocks := p }, heap.newArray p)

/-- `MemoryBlock::~MemoryBlock`. -/
def destroy (block : MemoryBlock) (heap : Heap) : Heap := heap.deleteArray block.blocks

def beginPtr (block : MemoryBlock) : Nat := block.blocks

def endPtr (blockSize : Nat) (block : MemoryBlock) : Nat :=
  ptrAdd block.blocks (block.numberOfBlocks * blockSize)

end MemoryBlock

structure MemoryPoolFixedSize where
  head : Nat
  memoryBlock : MemoryBlock

namespace MemoryPoolFixedSize

def init : MemoryPoolFixedSize := ⟨0, ⟨0, 0⟩⟩

/-- The linking loop of `ResetMemoryPool`: from the block `pNode` on, links each block to
the next until `it` reaches `last`, and returns the last block reached. -/
def linkBlocks (blockSize last : Nat) : Nat → Nat → Nat → Heap → Option (Nat × Heap)
  | 0, _, _, _ => none
  | fuel + 1, it, pNode, heap =>
    if last ≠ it then
      let heap := heap.storeNext pNode it
      linkBlocks blockSize last fuel (ptrAdd it blockSize) (heap.loadNext pNode) heap
    else some (pNode, heap)

/-- The loop stores links and leaves the arrays alone. -/
lemma linkBlocks_frame {blockSize last fuel it pNode pNode' : Nat} {heap heap' : Heap}
    (h : linkBlocks blockSize last fuel it pNode heap = some (pNode', heap')) :
    heap'.arrays = heap.arrays ∧ heap'.badDeletes = heap.badDeletes ∧
      ∃ links, heap'.stores = links ++ heap.stores := by
  induction fuel generalizing it pNode heap with
  | zero => cases h
  | succ fuel ih =>
    rw [linkBlocks] at h
    split_ifs at h with hlast
    · obtain ⟨harrays, hbad, links, hlinks⟩ := ih h
      refine ⟨harrays, hbad, links ++ [pNode], ?_⟩
      rw [hlinks, Heap.stores_storeNext, List.append_assoc, List.singleton_append]
    · cases h
      exact ⟨rfl, rfl, [], rfl⟩

/-- `MemoryPoolFixedSize::ResetMemoryPool`; `none` when the fuel of the loop runs out. -/
def resetMemoryPool (blockSize fuel : Nat) (fresh : Option Nat) (iNumberOfBlocks : Nat)
    (pool : MemoryPoolFixedSize) (heap : Heap) : Option (Completion × MemoryPoolFixedSize × Heap) :=
  match pool.memoryBlock.allocate fresh iNumberOfBlocks heap with
  | (.threw, block, heap) => some (.threw, { pool with memoryBlock := block }, heap)
  | (.returned, block, heap) =>
    let pool := { head := block.beginPtr, memoryBlock := block }
    match linkBlocks blockSize (block.endPtr blockSize) fuel (ptrAdd block.beginPtr blockSize)
      pool.head heap with
    | none => none
    | some (pNode, heap) => some (.returned, pool, heap.storeNext pNode 0)

/-- A reset that returned owns the new array, and stored at least the last link. -/
lemma resetMemoryPool_frame {blockSize fuel base n : Nat} {completion : Completion}
    {pool pool' : MemoryPoolFixedSize} {heap heap' : Heap}
    (h : resetMemoryPool blockSize fuel (some base) n pool heap =
      some (completion, pool', heap')) :
    pool' = ⟨base, ⟨base, n⟩⟩ ∧
      heap'.arrays = base :: (heap.deleteArray pool.memoryBlock.blocks).arrays ∧
      heap'.badDeletes = (heap.deleteArray pool.memoryBlock.blocks).badDeletes ∧
      ∃ pNode links, heap'.stores = (pNode :: links) ++ heap.stores := by
  simp only [resetMemoryPool, MemoryBlock.allocate] at h
  split at h
  · cases h
  · next pNode _ hlink =>
    cases h
    obtain ⟨harrays, hbad, links, hlinks⟩ := linkBlocks_frame hlink
    refine ⟨rfl, harrays, hbad, pNode, links, ?_⟩
    rw [Heap.stores_storeNext, hlinks, Heap.stores_newArray, Heap.stores_deleteArray,
      List.cons_append]

lemma resetMemoryPool_one (blockSize base : Nat) (pool : MemoryPoolFixedSize) (heap : Heap) :
    resetMemoryPool blockSize 1 (some base) 1 pool heap = some (.returned, ⟨base, ⟨base, 1⟩⟩,
      ((heap.deleteArray pool.memoryBlock.blocks).newArray base).storeNext base 0) := by
  simp [resetMemoryPool, MemoryBlock.allocate, linkBlocks, MemoryBlock.endPtr,
    MemoryBlock.beginPtr]

/-- The first of two blocks is linked before the link of the second one is written. -/
lemma resetMemoryPool_two {blockSize base : Nat} (hpos : 0 < blockSize)
    (hend : base + 2 * blockSize < 2 ^ 64) (pool : MemoryPoolFixedSize) (heap : Heap) :
    resetMemoryPool blockSize 2 (some base) 2 pool heap = some (.returned, ⟨base, ⟨base, 2⟩⟩,
      (((heap.deleteArray pool.memoryBlock.blocks).newArray base).storeNext base
        (base + blockSize)).storeNext (base + blockSize) 0) := by
  have hfirst : ptrAdd base blockSize = base + blockSize := Nat.mod_eq_of_lt (by omega)
  have hsecond : ptrAdd (base + blockSize) blockSize = base + 2 * blockSize := by
    rw [ptrAdd, Nat.mod_eq_of_lt (by omega)]
    ring
  have hlast : ptrAdd base (2 * blockSize) = base + 2 * blockSize := Nat.mod_eq_of_lt hend
  have hnext : (((heap.deleteArray pool.memoryBlock.blocks).newArray base).storeNext base
      (base + blockSize)).loadNext base = base + blockSize :=
    Heap.loadNext_storeNext _ (by omega)
  have hne : base + 2 * blockSize ≠ base + blockSize := by omega
  simp only [resetMemoryPool, MemoryBlock.allocate, MemoryBlock.beginPtr, MemoryBlock.endPtr, hfirst,
    hlast, linkBlocks, if_pos hne, hnext, hsecond, ne_eq, not_true_eq_false, if_false]

def takeBlock (blockSize iRequestedSize : Nat) (pool : MemoryPoolFixedSize) (heap : Heap) :
    Nat × MemoryPoolFixedSize :=
  if iRequestedSize ≤ blockSize ∧ pool.head ≠ 0 then
    (pool.head, { pool with head := heap.loadNext pool.head })
  else (0, pool)

def returnBlock (blockSize iBlock : Nat) (pool : MemoryPoolFixedSize) (heap : Heap) :
    Bool × MemoryPoolFixedSize × Heap :=
  if pool.memoryBlock.beginPtr ≤ iBlock ∧ iBlock ≤ pool.memoryBlock.endPtr blockSize then
    let previousHead := pool.head
    (true, { pool with head := iBlock }, heap.storeNext iBlock previousHead)
  else (false, pool, heap)

@[simp] lemma takeBlock_memoryBlock (blockSize size : Nat) (pool : MemoryPoolFixedSize)
    (heap : Heap) : (takeBlock blockSize size pool heap).2.memoryBlock = pool.memoryBlock := by
  unfold takeBlock
  split_ifs <;> rfl

@[simp] lemma returnBlock_memoryBlock (blockSize p : Nat) (pool : MemoryPoolFixedSize)
    (heap : Heap) : (returnBlock blockSize p pool heap).2.1.memoryBlock = pool.memoryBlock := by
  unfold returnBlock
  split_ifs <;> rfl

/-- The addresses `begin() + i * BlockSize` of the blocks of the arena, in order. -/
def blockStarts (blockSize : Nat) (pool : MemoryPoolFixedSize) : List Nat :=
  arenaBlocks blockSize pool.memoryBlock.beginPtr pool.memoryBlock.numberOfBlocks

@[simp] lemma length_blockStarts (blockSize : Nat) (pool : MemoryPoolFixedSize) :
    (pool.blockStarts blockSize).length = pool.memoryBlock.numberOfBlocks := by
  rw [blockStarts, arenaBlocks, List.length_map, List.length_range]

lemma mem_blockStarts {blockSize : Nat} {pool : MemoryPoolFixedSize} {p : Nat} :
    p ∈ pool.blockStarts blockSize ↔ ∃ i, i < pool.memoryBlock.numberOfBlocks ∧
      p = pool.memoryBlock.beginPtr + i * blockSize := by
  simp [blockStarts, arenaBlocks, eq_comm]

lemma blockStarts_bounds {blockSize : Nat} {pool : MemoryPoolFixedSize} {p : Nat}
    (h : p ∈ pool.blockStarts blockSize) :
    pool.memoryBlock.beginPtr ≤ p ∧ p + blockSize ≤
      pool.memoryBlock.beginPtr + pool.memoryBlock.numberOfBlocks * blockSize := by
  obtain ⟨i, hi, rfl⟩ := mem_blockStarts.mp h
  have hle : (i + 1) * blockSize ≤ pool.memoryBlock.numberOfBlocks * blockSize :=
    Nat.mul_le_mul_right _ hi
  have hsplit : (i + 1) * blockSize = i * blockSize + blockSize := by ring
  omega

lemma blockStarts_apart {blockSize : Nat} {pool : MemoryPoolFixedSize} {p q : Nat}
    (hp : p ∈ pool.blockStarts blockSize) (hq : q ∈ pool.blockStarts blockSize) (hne : p ≠ q) :
    p + blockSize ≤ q ∨ q + blockSize ≤ p := by
  obtain ⟨i, -, rfl⟩ := mem_blockStarts.mp hp
  obtain ⟨j, -, rfl⟩ := mem_blockStarts.mp hq
  rcases Nat.lt_trichotomy i j with h | rfl | h
  · have hle : (i + 1) * blockSize ≤ j * blockSize := Nat.mul_le_mul_right _ h
    have hsplit : (i + 1) * blockSize = i * blockSize + blockSize := by ring
    omega
  · exact absurd rfl hne
  · have hle : (j + 1) * blockSize ≤ i * blockSize := Nat.mul_le_mul_right _ h
    have hsplit : (j + 1) * blockSize = j * blockSize + blockSize := by ring
    omega

lemma blockStarts_sorted {blockSize : Nat} (hb : 0 < blockSize) (pool : MemoryPoolFixedSize) :
    (pool.blockStarts blockSize).Pairwise (· < ·) := by
  apply List.pairwise_map.mpr
  apply List.pairwise_lt_range.imp
  intro i j hij
  have := Nat.mul_lt_mul_of_pos_right hij hb
  omega

lemma blockStarts_nodup {blockSize : Nat} (hb : 0 < blockSize) (pool : MemoryPoolFixedSize) :
    (pool.blockStarts blockSize).Nodup :=
  (blockStarts_sorted hb pool).imp (fun h => Nat.ne_of_lt h)

end MemoryPoolFixedSize

end CppBenchmark
