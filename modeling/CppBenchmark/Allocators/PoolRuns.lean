import CppBenchmark.Allocators.PoolRefinement

/-!
# Runs of one pool

A client resets the pool, takes and returns blocks, and writes inside the blocks it
holds. Every run is matched by a run of the abstract stack with the same observations,
and no pool operation touches a byte of a block the client holds.
-/

namespace CppBenchmark

open ByteMemory LinkedList MemoryPoolFixedSize TransitionSystem

structure PoolState where
  pool : MemoryPoolFixedSize
  heap : Heap
  ledger : Ledger Nat

/-- The steps of a pool and its client. A reset forfeits the blocks still live. -/
inductive PoolStep (blockSize : Nat) : PoolState → StackEvent Nat → PoolState → Prop
  | reset {s : PoolState} {pool' : MemoryPoolFixedSize} {heap' : Heap} (fuel base n : Nat)
      (hn : 1 ≤ n) (harena : ValidArena blockSize base n)
      (h : resetMemoryPool blockSize fuel (some base) n s.pool s.heap =
        some (.returned, pool', heap')) :
    PoolStep blockSize s (.reset (arenaBlocks blockSize base n)) ⟨pool', heap', Ledger.reset⟩
  | takeBlock {s : PoolState} {pool' : MemoryPoolFixedSize} (size p : Nat) (hp : p ≠ 0)
      (h : takeBlock blockSize size s.pool s.heap = (p, pool')) :
    PoolStep blockSize s (.take size (some p)) ⟨pool', s.heap, s.ledger.take p⟩
  | takeNull {s : PoolState} {pool' : MemoryPoolFixedSize} (size : Nat)
      (h : takeBlock blockSize size s.pool s.heap = (0, pool')) :
    PoolStep blockSize s (.take size none) ⟨pool', s.heap, s.ledger⟩
  | returnBlock {s : PoolState} {pool' : MemoryPoolFixedSize} {heap' : Heap} {accepted : Bool}
      (p : Nat) (hlive : p ∈ s.ledger.live)
      (h : returnBlock blockSize p s.pool s.heap = (accepted, pool', heap')) :
    PoolStep blockSize s (.giveBack p) ⟨pool', heap', s.ledger.giveBack p⟩
  | write {s : PoolState} (p a : Nat) (v : UInt8) (hlive : p ∈ s.ledger.live) (hlow : p ≤ a)
      (hhigh : a < p + blockSize) :
    PoolStep blockSize s (.write a v) ⟨s.pool, s.heap.setByte a v, s.ledger⟩

def poolSystem (blockSize : Nat) : TransitionSystem PoolState (StackEvent Nat) where
  init s := s.pool = MemoryPoolFixedSize.init ∧ s.ledger = Ledger.reset
  step := PoolStep blockSize

/-- The pool stores the stack, which follows the client's ledger. -/
structure PoolRefines (blockSize : Nat) (s : PoolState) (a : BlockStack Nat × Ledger Nat) :
    Prop where
  represents : Represents blockSize s.pool s.heap a.1
  ledger_eq : s.ledger = a.2
  follows : Follows a.1 a.2

variable {blockSize : Nat}

/-- `TakeBlock` returns the null pointer for a size that does not fit, and with no block left. -/
lemma Represents.takeBlock_eq_zero {pool : MemoryPoolFixedSize} {heap : Heap}
    {stack : BlockStack Nat} (h : Represents blockSize pool heap stack) (size : Nat) :
    (takeBlock blockSize size pool heap).1 = 0 ↔ blockSize < size ∨ stack.top = none := by
  constructor
  · intro hzero
    by_contra hsome
    rw [not_or, Nat.not_lt] at hsome
    obtain ⟨x, hx⟩ := Option.ne_none_iff_exists'.mp hsome.2
    rw [h.takeBlock_of_top hsome.1 hx] at hzero
    exact (h.top_eq_some hx).2 hzero
  · intro hnone
    rw [h.takeBlock_none hnone]

lemma Represents.top_of_takeBlock {pool : MemoryPoolFixedSize} {heap : Heap}
    {stack : BlockStack Nat} (h : Represents blockSize pool heap stack) {size : Nat}
    (hne : (takeBlock blockSize size pool heap).1 ≠ 0) :
    size ≤ blockSize ∧ ∃ x, stack.top = some x := by
  rw [Ne, h.takeBlock_eq_zero, not_or, Nat.not_lt] at hne
  exact ⟨hne.1, Option.ne_none_iff_exists'.mp hne.2⟩

/-- Each step of the pool is the step of the stack with the same observation. -/
theorem pool_simulation (hb : sizeofNode ≤ blockSize) :
    ForwardSimulation (poolSystem blockSize) (stackSystem blockSize) (PoolRefines blockSize) where
  init := by
    rintro ⟨pool, heap, ledger⟩ ⟨rfl, rfl⟩
    exact ⟨_, rfl, Represents.init blockSize heap, rfl, Follows.reset [] List.nodup_nil⟩
  step := by
    rintro s ⟨stack, ledger⟩ e s' ⟨hrep, rfl, hfollows⟩ hstep
    dsimp only at hrep hfollows
    cases hstep with
    | reset fuel base n hn harena h =>
      obtain ⟨-, rfl, ⟨hnodup, hrep'⟩, -, -⟩ := resetMemoryPool_returned hb hn harena h
      exact ⟨_, .reset _ hnodup, hrep', rfl, Follows.reset _ hnodup⟩
    | takeBlock size p hp h =>
      obtain ⟨hsize, x, htop⟩ := hrep.top_of_takeBlock (by rwa [h])
      rw [hrep.takeBlock_of_top hsize htop, Prod.mk.injEq] at h
      obtain ⟨rfl, rfl⟩ := h
      exact ⟨_, .takeSome size x hsize htop, hrep.pop htop, rfl, hfollows.take htop⟩
    | takeNull size h =>
      have hnone := (hrep.takeBlock_eq_zero size).mp (by rw [h])
      rw [hrep.takeBlock_none hnone, Prod.mk.injEq] at h
      obtain ⟨-, rfl⟩ := h
      exact ⟨_, .takeNone size hnone, hrep, rfl, hfollows⟩
    | returnBlock p hlive h =>
      have hx := hfollows.mem_blocks hlive
      have hfree := hfollows.not_free hlive
      rw [hrep.returnBlock_of_mem hx, Prod.mk.injEq, Prod.mk.injEq] at h
      obtain ⟨-, rfl, rfl⟩ := h
      exact ⟨_, .giveBack p hlive hx hfree, hrep.push hb hx hfree, rfl,
        hfollows.giveBack hlive hx hfree⟩
    | write p a v hlive hlow hhigh =>
      refine ⟨_, .write a v, hrep.congr ?_, rfl, hfollows⟩
      intro q hq y hy hy'
      have hne : q ≠ p := fun hqp => hfollows.not_free hlive (hqp ▸ hq)
      have hapart := blockStarts_apart (hrep.mem_blockStarts (stack.free_subset q hq))
        (hrep.mem_blockStarts (hfollows.mem_blocks hlive)) hne
      exact Heap.setByte_ne s.heap (by omega)

/-- What a run keeps: a duplicate-free list of free blocks among all `blocks` of the latest
reset, and the answers of the next `TakeBlock`. -/
structure PoolIsStack (blockSize : Nat) (s : PoolState) (blocks free : List Nat) : Prop where
  arena : blocks = arenaBlocks blockSize s.pool.memoryBlock.beginPtr blocks.length
  list : ListAt 0 s.heap.loadNext s.pool.head free
  nodup : free.Nodup
  starts : ∀ p ∈ free, ∃ i, i < blocks.length ∧ p = s.pool.memoryBlock.beginPtr + i * blockSize
  partition : (free ++ s.ledger.live).Perm blocks
  take_null : ∀ size, (takeBlock blockSize size s.pool s.heap).1 = 0 ↔
    blockSize < size ∨ ∀ p ∈ blocks, p ∈ s.ledger.live
  take_null_unchanged : ∀ size, (takeBlock blockSize size s.pool s.heap).1 = 0 →
    (takeBlock blockSize size s.pool s.heap).2 = s.pool
  take_recent : ∀ size, (takeBlock blockSize size s.pool s.heap).1 ≠ 0 →
    ∀ p, s.ledger.returned.find? (fun q => decide (q ∈ free)) = some p →
      (takeBlock blockSize size s.pool s.heap).1 = p
  take_lowest : ∀ size, (takeBlock blockSize size s.pool s.heap).1 ≠ 0 →
    s.ledger.returned.find? (fun q => decide (q ∈ free)) = none →
      (takeBlock blockSize size s.pool s.heap).1 ∈ free ∧
        ∀ q ∈ free, (takeBlock blockSize size s.pool s.heap).1 ≤ q

namespace PoolRefines

variable {s : PoolState} {a : BlockStack Nat × Ledger Nat}

/-- The stack is empty exactly when the client holds every block. -/
lemma top_eq_none (h : PoolRefines blockSize s a) :
    a.1.top = none ↔ ∀ p ∈ a.1.blocks, p ∈ s.ledger.live := by
  have hpart := h.follows.partition
  rw [← h.ledger_eq] at hpart
  rw [BlockStack.top, List.head?_eq_none_iff]
  constructor
  · intro hfree p hp
    simpa [hfree] using hpart.mem_iff.mpr hp
  · intro hall
    by_contra hne
    obtain ⟨x, hx⟩ := List.exists_mem_of_ne_nil _ hne
    exact h.follows.not_free (h.ledger_eq ▸ hall x (a.1.free_subset x hx)) hx

lemma takeBlock_some (h : PoolRefines blockSize s a) {size : Nat}
    (hne : (takeBlock blockSize size s.pool s.heap).1 ≠ 0) :
    a.1.top = some (takeBlock blockSize size s.pool s.heap).1 := by
  obtain ⟨hsize, x, hx⟩ := h.represents.top_of_takeBlock hne
  rw [h.represents.takeBlock_of_top hsize hx, hx]

theorem isStack (hb : sizeofNode ≤ blockSize) (h : PoolRefines blockSize s a) :
    PoolIsStack blockSize s a.1.blocks a.1.free where
  arena := by
    rw [h.represents.blocks_eq, length_blockStarts]
    rfl
  list := h.represents.list
  nodup := a.1.nodup_free
  starts p hp := by
    rw [h.represents.blocks_eq, length_blockStarts]
    exact mem_blockStarts.mp (h.represents.mem_blockStarts (a.1.free_subset p hp))
  partition := by
    rw [h.ledger_eq]
    exact h.follows.partition
  take_null size := by rw [h.represents.takeBlock_eq_zero, h.top_eq_none]
  take_null_unchanged size hzero := by
    rw [h.represents.takeBlock_none ((h.represents.takeBlock_eq_zero size).mp hzero)]
  take_recent size hne p hp := by
    have htop := h.follows.top_eq
    rw [h.takeBlock_some hne, ← h.ledger_eq, hp, Option.some_or, Option.some.injEq] at htop
    exact htop
  take_lowest size hne hnone := by
    have htop := h.follows.top_eq
    rw [h.takeBlock_some hne, ← h.ledger_eq, hnone, Option.none_or] at htop
    obtain ⟨hfree, pre, post, hsplit, hpre⟩ := List.find?_eq_some_iff_append.mp htop.symm
    refine ⟨by simpa using hfree, ?_⟩
    intro q hq
    have hpos := pos_of_sizeofNode_le hb
    have hsorted := blockStarts_sorted hpos s.pool
    rw [← h.represents.blocks_eq, hsplit] at hsorted
    have hmem : q ∈ a.1.blocks := a.1.free_subset q hq
    rw [hsplit] at hmem
    rcases List.mem_append.mp hmem with hq' | hq'
    · simpa [hq] using hpre q hq'
    · rcases List.mem_cons.mp hq' with rfl | hq'
      · exact Nat.le_refl _
      · exact Nat.le_of_lt (List.rel_of_pairwise_cons (List.pairwise_append.mp hsorted).2.1 hq')

end PoolRefines

/-- In every run the pool is a last-in, first-out stack of all blocks that its latest reset
asked for: the abstract stack has a run with the same observations, and the list stored
inside the blocks is that of its free blocks. The next reset, to any arena, returns. -/
theorem pool_refines_stack (hb : sizeofNode ≤ blockSize) {es : List (StackEvent Nat)}
    {s : PoolState} (h : (poolSystem blockSize).Run es s) :
    (∃ stack, (stackSystem blockSize).Run es (stack, s.ledger) ∧
      PoolIsStack blockSize s (resetBlocks es) stack.free) ∧
    ∀ base n, 1 ≤ n → ValidArena blockSize base n →
      ∃ s', PoolStep blockSize s (.reset (arenaBlocks blockSize base n)) s' := by
  constructor
  · obtain ⟨⟨stack, ledger⟩, hrun, href⟩ := (pool_simulation hb).run h
    obtain rfl : s.ledger = ledger := href.ledger_eq
    refine ⟨stack, hrun, ?_⟩
    rw [← stackSystem_blocks hrun]
    exact href.isStack hb
  · intro base n hn harena
    obtain ⟨heap', hreset, -⟩ := resetMemoryPool_spec hb hn harena s.pool s.heap (Nat.le_refl n)
    exact ⟨_, .reset n base n hn harena hreset⟩

theorem pool_refines_stack_run : ∃ es s, (poolSystem 32).Run es s ∧ s.ledger.returned = [4096] ∧
    ∃ stack, (stackSystem 32).Run es (stack, s.ledger) ∧
      PoolIsStack 32 s [4096, 4128] stack.free := by
  obtain ⟨heap, hreset, ⟨hnodup, hrep⟩, -, -⟩ := resetMemoryPool_spec (by decide : sizeofNode ≤ 32)
    (by decide : 1 ≤ 2) (⟨by norm_num, by norm_num⟩ : ValidArena 32 4096 2)
    MemoryPoolFixedSize.init ⟨fun _ => 0, [], [], []⟩ (Nat.le_refl 2)
  have htop : (BlockStack.reset (blockStarts 32 ⟨4096, ⟨4096, 2⟩⟩) hnodup).top = some 4096 := rfl
  have htake := hrep.takeBlock_of_top (by decide : 24 ≤ 32) htop
  have hgive := (hrep.pop htop).returnBlock_of_mem (by decide : 4096 ∈ [4096, 4128])
  have hrun : (poolSystem 32).Run _ _ := .step (.step (.step
    (.init (⟨rfl, rfl⟩ : (poolSystem 32).init ⟨_, _, Ledger.reset⟩))
    (.reset 2 4096 2 (by decide) ⟨by norm_num, by norm_num⟩ hreset))
    (.takeBlock 24 4096 (by decide) htake))
    (.returnBlock 4096 List.mem_cons_self hgive)
  exact ⟨_, _, hrun, rfl, (pool_refines_stack (by decide) hrun).1⟩

/-- What a pool operation from `s` to `s'` touches: no byte of a live block, no byte
outside the arena, and each link it wrote lies inside a free block. -/
structure StepFrame (blockSize : Nat) (s s' : PoolState) : Prop where
  live : ∀ x, s'.heap.memory x ≠ s.heap.memory x →
    ∀ p ∈ s'.ledger.live, x < p ∨ p + blockSize ≤ x
  arena : ∀ x, s'.heap.memory x ≠ s.heap.memory x →
    s'.pool.memoryBlock.beginPtr ≤ x ∧ x < s'.pool.memoryBlock.endPtr blockSize
  linked : ∃ links, s'.heap.stores = links ++ s.heap.stores ∧
    ∀ p ∈ links, ∃ q ∈ s'.pool.blockStarts blockSize, q ∉ s'.ledger.live ∧
      q ≤ p ∧ p + sizeofNode ≤ q + blockSize

def StackEvent.IsPoolOperation : StackEvent Nat → Prop
  | .write _ _ => False
  | _ => True

def KeepsClientData (blockSize : Nat) : Prop :=
  ∀ es s e s', (poolSystem blockSize).Run es s → PoolStep blockSize s e s' → e.IsPoolOperation →
    StepFrame blockSize s s'

/-- The link that `ReturnBlock` writes lies inside the block, which is live no more. -/
lemma PoolRefines.stepFrame_giveBack (hb : sizeofNode ≤ blockSize) {s : PoolState}
    {a : BlockStack Nat × Ledger Nat} (h : PoolRefines blockSize s a) {p : Nat}
    (hlive : p ∈ a.2.live) :
    StepFrame blockSize s ⟨{ s.pool with head := p }, s.heap.storeNext p s.pool.head,
      s.ledger.giveBack p⟩ := by
  have hrep := h.represents
  have hfollows := h.follows
  have hblock := hfollows.mem_blocks hlive
  have hbounds := hrep.block_bounds hblock
  have hchange : ∀ x, (s.heap.storeNext p s.pool.head).memory x ≠ s.heap.memory x →
      p ≤ x ∧ x < p + sizeofNode := by
    intro x hx
    by_contra hout
    exact hx (Heap.storeNext_outside s.heap (by omega))
  have herase : (s.ledger.giveBack p).live = a.2.live.erase p := by
    rw [h.ledger_eq]
    rfl
  have hgone : p ∉ (s.ledger.giveBack p).live := by
    rw [herase]
    exact (List.nodup_append.mp hfollows.nodup).2.1.not_mem_erase
  refine ⟨?_, ?_, [p], rfl, ?_⟩
  · intro x hx q hq
    have hx' := hchange x hx
    have hne : q ≠ p := fun hqp => hgone (hqp ▸ hq)
    have hqlive : q ∈ a.2.live := List.mem_of_mem_erase (herase ▸ hq)
    have hapart := blockStarts_apart (hrep.mem_blockStarts (hfollows.mem_blocks hqlive))
      (hrep.mem_blockStarts hblock) hne
    omega
  · intro x hx
    have hx' := hchange x hx
    change s.pool.memoryBlock.beginPtr ≤ x ∧ x < s.pool.memoryBlock.endPtr blockSize
    omega
  · intro q hq
    obtain rfl := List.mem_singleton.mp hq
    exact ⟨q, hrep.mem_blockStarts hblock, hgone, Nat.le_refl q, by omega⟩

lemma PoolRefines.stepFrame (hb : sizeofNode ≤ blockSize) {s s' : PoolState}
    {a : BlockStack Nat × Ledger Nat} {e : StackEvent Nat} (h : PoolRefines blockSize s a)
    (hstep : PoolStep blockSize s e s') (he : e.IsPoolOperation) : StepFrame blockSize s s' := by
  cases hstep with
  | reset fuel base n hn harena hreset =>
    obtain ⟨-, rfl, ⟨_, hrep⟩, hframe, hstores⟩ := resetMemoryPool_returned hb hn harena hreset
    refine ⟨fun _ _ p hp => absurd hp List.not_mem_nil, ?_, _, hstores, ?_⟩
    · intro x hx
      rw [hrep.endPtr_eq]
      change base ≤ x ∧ x < base + n * blockSize
      by_contra hout
      exact hx (hframe x (by omega))
    · intro p hp
      exact ⟨p, List.mem_reverse.mp hp, List.not_mem_nil, Nat.le_refl p, by omega⟩
  | takeBlock size p hp htake =>
    exact ⟨fun x hx => absurd rfl hx, fun x hx => absurd rfl hx, [], rfl, by simp⟩
  | takeNull size htake =>
    exact ⟨fun x hx => absurd rfl hx, fun x hx => absurd rfl hx, [], rfl, by simp⟩
  | returnBlock p hlive hgive =>
    rw [h.ledger_eq] at hlive
    rw [h.represents.returnBlock_of_mem (h.follows.mem_blocks hlive), Prod.mk.injEq,
      Prod.mk.injEq] at hgive
    obtain ⟨-, rfl, rfl⟩ := hgive
    exact h.stepFrame_giveBack hb hlive
  | write => exact he.elim

/-- Pool operations leave client data alone in every run exactly when a block has room for
a link. -/
theorem keepsClientData_iff (blockSize : Nat) :
    KeepsClientData blockSize ↔ sizeofNode ≤ blockSize := by
  constructor
  · intro h
    let s : PoolState := ⟨MemoryPoolFixedSize.init, ⟨fun _ => 0, [], [], []⟩, Ledger.reset⟩
    by_contra hsmall
    simp only [sizeofNode, Nat.not_le] at hsmall
    have hframe := h [] s _ _ (.init ⟨rfl, rfl⟩)
      (.reset 1 4096 1 (Nat.le_refl 1) ⟨by norm_num, by omega⟩
        (resetMemoryPool_one blockSize 4096 s.pool s.heap)) trivial
    obtain ⟨links, hlinks, hin⟩ := hframe.linked
    have hmem : 4096 ∈ links := by
      have hlinks' : links = [4096] := by simpa [s] using hlinks.symm
      simp [hlinks']
    obtain ⟨q, hq, -, -, hfit⟩ := hin 4096 hmem
    obtain ⟨i, hi, rfl⟩ := mem_blockStarts.mp hq
    obtain rfl : i = 0 := Nat.lt_one_iff.mp hi
    simp only [MemoryBlock.beginPtr, sizeofNode] at hfit
    omega
  · intro hb es s e s' hrun hstep he
    obtain ⟨a, -, href⟩ := (pool_simulation hb).run hrun
    exact href.stepFrame hb hstep he

/-- With blocks of four bytes, giving back the first of two blocks overwrites the second
one while the client holds it. -/
theorem fourByteBlocks_overwritten : ¬KeepsClientData 4 := by
  let heap₀ : Heap := ⟨fun _ => 0, [], [], []⟩
  let heap₁ := (((heap₀.newArray 4096).storeNext 4096 4100).storeNext 4100 0)
  let heap₂ := heap₁.setByte 4100 255
  have hreset : resetMemoryPool 4 2 (some 4096) 2 MemoryPoolFixedSize.init heap₀ =
      some (.returned, ⟨4096, ⟨4096, 2⟩⟩, heap₁) :=
    resetMemoryPool_two (by decide) (by norm_num) _ _
  have hfirst : heap₁.loadNext 4096 = 4100 := by decide +kernel
  have hsecond : heap₁.loadNext 4100 = 0 := Heap.loadNext_storeNext _ (by norm_num)
  have htake₁ : takeBlock 4 4 ⟨4096, ⟨4096, 2⟩⟩ heap₁ = (4096, ⟨4100, ⟨4096, 2⟩⟩) := by
    simp [takeBlock, hfirst]
  have htake₂ : takeBlock 4 4 ⟨4100, ⟨4096, 2⟩⟩ heap₁ = (4100, ⟨0, ⟨4096, 2⟩⟩) := by
    simp [takeBlock, hsecond]
  have hgive : returnBlock 4 4096 ⟨0, ⟨4096, 2⟩⟩ heap₂ =
      (true, ⟨4096, ⟨4096, 2⟩⟩, heap₂.storeNext 4096 0) := by
    simp [returnBlock, MemoryBlock.beginPtr, MemoryBlock.endPtr, ptrAdd]
  intro h
  have hrun : (poolSystem 4).Run _ _ := .step (.step (.step (.step
    (.init (⟨rfl, rfl⟩ : (poolSystem 4).init ⟨_, heap₀, Ledger.reset⟩))
    (.reset 2 4096 2 (by decide) ⟨by norm_num, by norm_num⟩ hreset))
    (.takeBlock 4 4096 (by decide) htake₁))
    (.takeBlock 4 4100 (by decide) htake₂))
    (.write 4100 4100 255 List.mem_cons_self (by decide) (by decide))
  have hframe := h _ _ _ _ hrun (.returnBlock 4096 (by decide) hgive) trivial
  have hchanged : (heap₂.storeNext 4096 0).memory 4100 ≠ heap₂.memory 4100 := by decide +kernel
  have hlive := hframe.live 4100 hchanged 4100 (by decide)
  omega

end CppBenchmark
