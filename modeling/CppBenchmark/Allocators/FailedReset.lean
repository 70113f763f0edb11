import CppBenchmark.Allocators.PoolRuns

/-!
# A reset whose array allocation throws

Runs of one pool in which any reset may throw. The state records which arrays are
allocated and how many bytes each has, so that freed memory can be told from memory the
pool owns. A failed reset does no harm exactly when the pool held no arena.
-/

namespace CppBenchmark

open MemoryPoolFixedSize TransitionSystem

/-- A pool and its client, with the number of bytes of the array at each address. -/
structure ArenaState where
  state : PoolState
  extent : Nat → Nat

inductive ArenaEvent
  | reset (n : Nat)
  | resetThrows (n : Nat)
  | client (e : StackEvent Nat)

def StackEvent.IsReset : StackEvent Nat → Prop
  | .reset _ => True
  | _ => False

/-- The steps of a pool whose resets may throw. The client still holds its blocks after
a reset that threw. -/
inductive ArenaStep (blockSize : Nat) : ArenaState → ArenaEvent → ArenaState → Prop
  | reset {s : ArenaState} {pool' : MemoryPoolFixedSize} {heap' : Heap} (fuel base n : Nat)
      (harena : ValidArena blockSize base n)
      (h : resetMemoryPool blockSize fuel (some base) n s.state.pool s.state.heap =
        some (.returned, pool', heap')) :
    ArenaStep blockSize s (.reset n)
      ⟨⟨pool', heap', Ledger.reset⟩, Function.update s.extent base (n * blockSize)⟩
  | resetThrows {s : ArenaState} {pool' : MemoryPoolFixedSize} {heap' : Heap} (fuel n : Nat)
      (h : resetMemoryPool blockSize fuel none n s.state.pool s.state.heap =
        some (.threw, pool', heap')) :
    ArenaStep blockSize s (.resetThrows n) ⟨⟨pool', heap', s.state.ledger⟩, s.extent⟩
  | client {s : ArenaState} {state' : PoolState} (e : StackEvent Nat) (he : ¬e.IsReset)
      (h : PoolStep blockSize s.state e state') :
    ArenaStep blockSize s (.client e) ⟨state', s.extent⟩

def arenaSystem (blockSize : Nat) : TransitionSystem ArenaState ArenaEvent where
  init s := s.state.pool = MemoryPoolFixedSize.init ∧ s.state.ledger = Ledger.reset ∧
    s.state.heap.arrays = [] ∧ s.state.heap.badDeletes = []
  step := ArenaStep blockSize

/-- Resets that return are of at least one block with room for a link, and resets throw
only while the pool holds no arena. -/
def GuardedReset (blockSize : Nat) (s : ArenaState) : ArenaEvent → Prop
  | .reset n => sizeofNode ≤ blockSize ∧ 1 ≤ n
  | .resetThrows _ => s.state.pool.memoryBlock.blocks = 0
  | .client _ => True

def guardedSystem (blockSize : Nat) : TransitionSystem ArenaState ArenaEvent :=
  (arenaSystem blockSize).restrict (GuardedReset blockSize)

structure HoldsNothing (s : ArenaState) : Prop where
  head : s.state.pool.head = 0
  blocks : s.state.pool.memoryBlock.blocks = 0
  live : s.state.ledger.live = []
  arrays : s.state.heap.arrays = []
  badDeletes : s.state.heap.badDeletes = []

structure HoldsArena (blockSize : Nat) (s : ArenaState) : Prop where
  room : sizeofNode ≤ blockSize
  refines : ∃ a, PoolRefines blockSize s.state a
  blocks : s.state.pool.memoryBlock.blocks ≠ 0
  arrays : s.state.heap.arrays = [s.state.pool.memoryBlock.blocks]
  extent : s.extent s.state.pool.memoryBlock.blocks =
    s.state.pool.memoryBlock.numberOfBlocks * blockSize
  badDeletes : s.state.heap.badDeletes = []

variable {blockSize : Nat} {s s' : ArenaState}

/-- The client's steps leave the arena and the arrays of the heap alone. -/
lemma PoolStep.arena_frame {s s' : PoolState} {e : StackEvent Nat}
    (h : PoolStep blockSize s e s') (he : ¬e.IsReset) :
    s'.pool.memoryBlock = s.pool.memoryBlock ∧ s'.heap.arrays = s.heap.arrays ∧
      s'.heap.badDeletes = s.heap.badDeletes := by
  cases h with
  | reset => exact (he trivial).elim
  | takeBlock size p hp h =>
    have hblock := takeBlock_memoryBlock blockSize size s.pool s.heap
    rw [h] at hblock
    exact ⟨hblock, rfl, rfl⟩
  | takeNull size h =>
    have hblock := takeBlock_memoryBlock blockSize size s.pool s.heap
    rw [h] at hblock
    exact ⟨hblock, rfl, rfl⟩
  | returnBlock p hlive h =>
    unfold MemoryPoolFixedSize.returnBlock at h
    split_ifs at h <;> cases h <;> exact ⟨rfl, rfl, rfl⟩
  | write => exact ⟨rfl, rfl, rfl⟩

lemma ArenaStep.resetThrows_eq {n : Nat} (h : ArenaStep blockSize s (.resetThrows n) s') :
    s' = ⟨⟨{ s.state.pool with memoryBlock := ⟨s.state.pool.memoryBlock.blocks, n⟩ },
      s.state.heap.deleteArray s.state.pool.memoryBlock.blocks, s.state.ledger⟩, s.extent⟩ := by
  cases h with
  | resetThrows fuel n h =>
    cases h
    rfl

namespace HoldsNothing

lemma of_init (blockSize : Nat) {s : ArenaState} (h : (arenaSystem blockSize).init s) :
    HoldsNothing s := by
  obtain ⟨hpool, hledger, harrays, hbad⟩ := h
  exact ⟨by rw [hpool]; rfl, by rw [hpool]; rfl, by rw [hledger]; rfl, harrays, hbad⟩

lemma deleteArray (h : HoldsNothing s) :
    s.state.heap.deleteArray s.state.pool.memoryBlock.blocks = s.state.heap := by
  rw [Heap.deleteArray, if_pos h.blocks]

lemma takeBlock_eq (h : HoldsNothing s) (size : Nat) :
    takeBlock blockSize size s.state.pool s.state.heap = (0, s.state.pool) := by
  rw [takeBlock, if_neg]
  exact fun hsome => hsome.2 h.head

lemma client (h : HoldsNothing s) {e : StackEvent Nat} {state' : PoolState} (he : ¬e.IsReset)
    (hstep : PoolStep blockSize s.state e state') : HoldsNothing ⟨state', s.extent⟩ := by
  cases hstep with
  | reset => exact (he trivial).elim
  | takeBlock size p hp htake =>
    rw [h.takeBlock_eq] at htake
    exact absurd (Prod.mk.inj htake).1.symm hp
  | takeNull size htake =>
    rw [h.takeBlock_eq] at htake
    obtain rfl := (Prod.mk.inj htake).2
    exact ⟨h.head, h.blocks, h.live, h.arrays, h.badDeletes⟩
  | returnBlock p hlive =>
    rw [h.live] at hlive
    exact absurd hlive List.not_mem_nil
  | write p a v hlive =>
    rw [h.live] at hlive
    exact absurd hlive List.not_mem_nil

/-- With no arena, a reset that threw only stores the count. -/
lemma resetThrows (h : HoldsNothing s) {n : Nat}
    (hstep : ArenaStep blockSize s (.resetThrows n) s') :
    HoldsNothing s' ∧ s'.state.pool = ⟨0, ⟨0, n⟩⟩ ∧ s'.state.heap = s.state.heap := by
  obtain rfl := hstep.resetThrows_eq
  have hheap := h.deleteArray
  refine ⟨⟨h.head, h.blocks, h.live, ?_, ?_⟩, ?_, hheap⟩
  · rw [hheap, h.arrays]
  · rw [hheap, h.badDeletes]
  · change MemoryPoolFixedSize.mk s.state.pool.head ⟨s.state.pool.memoryBlock.blocks, n⟩ = _
    rw [h.head, h.blocks]

end HoldsNothing

namespace HoldsArena

lemma client (h : HoldsArena blockSize s) {e : StackEvent Nat} {state' : PoolState}
    (he : ¬e.IsReset) (hstep : PoolStep blockSize s.state e state') :
    HoldsArena blockSize ⟨state', s.extent⟩ := by
  obtain ⟨a, href⟩ := h.refines
  obtain ⟨a', -, href'⟩ := (pool_simulation h.room).step _ _ _ _ href hstep
  obtain ⟨hblock, harrays, hbad⟩ := hstep.arena_frame he
  refine ⟨h.room, ⟨a', href'⟩, ?_, ?_, ?_, ?_⟩
  · rw [hblock]
    exact h.blocks
  · rw [harrays, hblock]
    exact h.arrays
  · rw [hblock]
    exact h.extent
  · rw [hbad]
    exact h.badDeletes

end HoldsArena

def Settled (blockSize : Nat) (s : ArenaState) : Prop := HoldsNothing s ∨ HoldsArena blockSize s

namespace Settled

lemma blocks_eq_zero (h : Settled blockSize s) (hzero : s.state.pool.memoryBlock.blocks = 0) :
    HoldsNothing s := by
  rcases h with hnothing | harena
  · exact hnothing
  · exact absurd hzero harena.blocks

lemma deleteArray (h : Settled blockSize s) :
    (s.state.heap.deleteArray s.state.pool.memoryBlock.blocks).arrays = [] ∧
      (s.state.heap.deleteArray s.state.pool.memoryBlock.blocks).badDeletes = [] := by
  rcases h with hnothing | harena
  · rw [hnothing.deleteArray]
    exact ⟨hnothing.arrays, hnothing.badDeletes⟩
  · rw [Heap.deleteArray, if_neg harena.blocks, harena.arrays, if_pos (List.mem_singleton_self _)]
    exact ⟨by simp, harena.badDeletes⟩

/-- Every guarded step leads to a pool without an arena, or to one that owns its arena. -/
theorem step (h : Settled blockSize s) {e : ArenaEvent} (hstep : ArenaStep blockSize s e s')
    (hguard : GuardedReset blockSize s e) : Settled blockSize s' := by
  cases hstep with
  | reset fuel base n harena hreset =>
    obtain ⟨hb, hn⟩ := hguard
    obtain ⟨-, rfl, ⟨hnodup, hrep⟩, -, -⟩ := resetMemoryPool_returned hb hn harena hreset
    obtain ⟨-, harrays, hbad, -⟩ := resetMemoryPool_frame hreset
    rw [h.deleteArray.1] at harrays
    rw [h.deleteArray.2] at hbad
    refine Or.inr ⟨hb, ⟨(_, Ledger.reset), hrep, rfl, Follows.reset _ hnodup⟩,
      harena.base_pos.ne', harrays, ?_, hbad⟩
    exact Function.update_self base (n * blockSize) s.extent
  | resetThrows fuel n hreset =>
    exact Or.inl ((h.blocks_eq_zero hguard).resetThrows (.resetThrows fuel n hreset)).1
  | client e he hclient =>
    rcases h with hnothing | harena
    · exact Or.inl (hnothing.client he hclient)
    · exact Or.inr (harena.client he hclient)

theorem run {es : List ArenaEvent} (h : (guardedSystem blockSize).Run es s) :
    Settled blockSize s :=
  h.invariant (fun _ hinit => Or.inl (HoldsNothing.of_init blockSize hinit))
    (fun _ _ _ hs hstep => hs.step hstep.1 hstep.2)

end Settled

end CppBenchmark
