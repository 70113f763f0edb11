import CppBenchmark.Allocators.AllocationRouting

/-!
# What a deallocation relies on

Ownership is not recorded: `ReturnBlock` decides it from the address, with a test that
also accepts the address just past the arena, and `operator==` compares neither pools nor
default allocators. Both contracts of the allocator hold exactly away from these.
-/

namespace CppBenchmark

open ByteMemory LinkedList MemoryPoolFixedSize TransitionSystem

variable {blockSize : Nat}

/-- The deallocation of `x` through the pool `k` calls `ReturnBlock` successfully exactly
when a pool handed `x` out, and the default deallocate with the same request exactly when
the default allocator did. -/
def RoutesToSource {ι δ : Type*} (blockSize : Nat) (w : World ι δ) (k : ι)
    (x : Allocation ι δ) : Prop :=
  (Call.returnBlock x.pointer true ∈ w.deallocateCalls blockSize k x ↔ x.fromPool = true) ∧
    (Call.defaultDeallocate x.pointer x.request ∈ w.deallocateCalls blockSize k x ↔
      x.fromPool = false)

namespace WorldRefines

variable {ι δ : Type*} [DecidableEq ι] [DecidableEq δ] {w : World ι δ}
  {stackOf : ι → BlockStack Nat} {x : Allocation ι δ} {k : ι}

lemma calls_block (h : WorldRefines blockSize w stackOf) (hx : x ∈ w.live)
    (hpool : x.fromPool = true) :
    w.deallocateCalls blockSize x.memoryPool x = [.returnBlock x.pointer true] := by
  rw [World.deallocateCalls, Request.deallocate_eq,
    (h.represents _).deallocateTo_of_mem (h.block_mem hx hpool)]

lemma calls_default (h : WorldRefines blockSize w stackOf) (hx : x ∈ w.live)
    (hpool : x.fromPool = false) (hend : x.pointer ≠ (w.pools k).memoryBlock.endPtr blockSize) :
    w.deallocateCalls blockSize k x =
      [.returnBlock x.pointer false, .defaultDeallocate x.pointer x.request] := by
  rw [World.deallocateCalls, Request.deallocate_eq,
    Represents.deallocateTo_refused ((h.default_out x hx hpool).2 k) hend]

lemma calls_end (h : WorldRefines blockSize w stackOf)
    (hend : x.pointer = (w.pools k).memoryBlock.endPtr blockSize) :
    w.deallocateCalls blockSize k x = [.returnBlock x.pointer true] := by
  rw [World.deallocateCalls, Request.deallocate_eq, (h.represents k).deallocateTo_end hend]

theorem routesToSource_iff (h : WorldRefines blockSize w stackOf) (hx : x ∈ w.live) :
    RoutesToSource blockSize w x.memoryPool x ↔
      Routable blockSize w x.memoryPool x.defaultAllocator x := by
  cases hpool : x.fromPool with
  | true => simp [RoutesToSource, Routable, h.calls_block hx hpool, hpool]
  | false =>
    by_cases hend : x.pointer = (w.pools x.memoryPool).memoryBlock.endPtr blockSize
    · simp [RoutesToSource, Routable, h.calls_end hend, hpool, hend]
    · simp [RoutesToSource, Routable, h.calls_default hx hpool hend, hpool, hend]

end WorldRefines

/-- The contract of the allocators that share one pool: pointers go back to their source
whenever the address can tell, the pool's free list holds only blocks of its arena, and
the default allocator lost nothing. -/
structure SourcesKept (blockSize : Nat) (w : World Unit Unit) : Prop where
  routes : ∀ x ∈ w.live, (RoutesToSource blockSize w () x ↔ Routable blockSize w () () x)
  free_blocks : ∃ free, ListAt 0 w.heap.loadNext (w.pools ()).head free ∧
    ∀ p ∈ free, p ∈ (w.pools ()).blockStarts blockSize
  default_held : (w.defaultBlocks ()).Perm (w.defaultLive ())

lemma WorldRefines.sourcesKept {w : World Unit Unit} {stackOf : Unit → BlockStack Nat}
    (h : WorldRefines blockSize w stackOf) : SourcesKept blockSize w where
  routes _ hx := h.routesToSource_iff hx
  free_blocks := ⟨(stackOf ()).free, (h.represents ()).list,
    fun _ hp => (h.represents ()).mem_blockStarts ((stackOf ()).free_subset _ hp)⟩
  default_held := h.default_held ()

section SmallBlocks

/-- The arena of the runs with small blocks. Its address is a multiple of `2 ^ 56`, so the
low bytes of the first link are those of the block size. -/
def smallArena : Nat := 2 ^ 60

def smallHeap (blockSize : Nat) : Heap :=
  (((freshWorld : World Unit Unit).heap.newArray smallArena).storeNext smallArena
    (smallArena + blockSize)).storeNext (smallArena + blockSize) 0

/-- A link that runs into the next block is overwritten by that block's own link. -/
lemma loadNext_smallHeap (hpos : 0 < blockSize) (hsmall : blockSize < sizeofNode) :
    (smallHeap blockSize).loadNext smallArena = blockSize := by
  simp only [sizeofNode] at hsmall
  -- Seven block sizes are left, and the heap is closed for each.
  interval_cases blockSize <;> decide +kernel

lemma resetMemoryPool_smallHeap (hpos : 0 < blockSize) (hsmall : blockSize < sizeofNode) :
    resetMemoryPool blockSize 2 (some smallArena) 2 MemoryPoolFixedSize.init
      (freshWorld : World Unit Unit).heap =
        some (.returned, ⟨smallArena, ⟨smallArena, 2⟩⟩, smallHeap blockSize) := by
  simp only [sizeofNode] at hsmall
  exact resetMemoryPool_two hpos (by simp only [smallArena]; omega) _ _

/-- Blocks too small for a link: the second block handed out lies outside the arena, and
its deallocation goes to the default allocator. -/
lemma smallBlocks_misroute (hpos : 0 < blockSize) (hsmall : blockSize < sizeofNode) :
    ∃ es w, (routableSystem blockSize Unit Unit).Run es w ∧
      ¬SourcesKept blockSize w := by
  have hload := loadNext_smallHeap hpos hsmall
  have hsize : 1 ≤ blockSize := hpos
  have hbase : smallArena ≠ 0 := by decide
  let r : Request := .bytes 1 1
  let w₁ : World Unit Unit := { (freshWorld : World Unit Unit) with
    pools := Function.update (freshWorld : World Unit Unit).pools () ⟨smallArena, ⟨smallArena, 2⟩⟩
    heap := smallHeap blockSize }
  let w₃ := (w₁.allocate blockSize () () r none).allocate blockSize () () r none
  let x : Allocation Unit Unit := ⟨(), (), r, blockSize, true⟩
  have hend : smallArena + 2 * blockSize < 2 ^ 64 := by
    simp only [sizeofNode] at hsmall
    simp only [smallArena]
    omega
  have hreset : WorldStep blockSize freshWorld (.reset () smallArena 2) w₁ :=
    .reset_init (freshWorld_init blockSize) () ⟨by decide, hend⟩
      (resetMemoryPool_smallHeap hpos hsmall)
  have hrun : (routableSystem blockSize Unit Unit).Run
      [.allocate () () r none, .allocate () () r none, .reset () smallArena 2] w₃ :=
    .step (.step (.step (.init (freshWorld_init blockSize)) ⟨hreset, one_le_two⟩)
      ⟨.allocate () () r none (fun _ h => by cases h), trivial⟩)
      ⟨.allocate () () r none (fun _ h => by cases h), trivial⟩
  have hfirst : w₁.allocate blockSize () () r none = { w₁ with
      pools := Function.update w₁.pools () ⟨blockSize, ⟨smallArena, 2⟩⟩
      live := [⟨(), (), r, smallArena, true⟩] } := by
    rw [World.allocate_of_head hsize hbase]
    simp [w₁, hload, freshWorld]
  have hsecond : x ∈ w₃.live := by
    simp only [w₃]
    rw [hfirst, World.allocate_of_head hsize hpos.ne']
    exact List.mem_cons_self
  have hmemory : (w₃.pools ()).memoryBlock = ⟨smallArena, 2⟩ := by
    simp only [w₃, World.memoryBlock_allocate]
    rfl
  refine ⟨_, w₃, hrun, ?_⟩
  intro hkept
  have hroutable : Routable blockSize w₃ () () x := ⟨fun _ => rfl, fun h => by cases h⟩
  have hcall := ((hkept.routes x hsecond).mpr hroutable).1.mpr rfl
  have hrefused : ¬(smallArena ≤ blockSize) := by
    simp only [sizeofNode] at hsmall
    simp only [smallArena]
    omega
  simp [World.deallocateCalls, Request.deallocate, MemoryResourceMemoryPoolFixedSize.doDeallocate,
    deallocateTo, returnBlock, MemoryBlock.beginPtr, hmemory, hrefused, x, r] at hcall

end SmallBlocks

section UnguardedResets

variable {w w' : World Unit Unit}

/-- A reset to no blocks leaves its last node, which is no block, on the free list. -/
lemma WorldStep.reset_zero_loses {base : Nat}
    (hstep : WorldStep blockSize w (.reset () base 0) w') : ¬SourcesKept blockSize w' := by
  cases hstep with
  | reset k fuel base n harena hidle hapart hdefault hreset =>
    obtain ⟨rfl, -⟩ := resetMemoryPool_frame hreset
    intro hkept
    obtain ⟨free, hlist, hblocks⟩ := hkept.free_blocks
    simp only [Function.update_self] at hlist hblocks
    have hhead := hlist.head_eq harena.base_pos.ne'
    obtain ⟨i, hi, -⟩ := mem_blockStarts.mp (hblocks base (List.mem_of_mem_head? hhead))
    exact Nat.not_lt_zero i hi

/-- A reset that throws keeps the free list, and with fewer blocks than before its arena no
longer covers it. -/
lemma WorldRefines.resetThrows_loses {stackOf : Unit → BlockStack Nat}
    (h : WorldRefines blockSize w stackOf) (hpos : 0 < blockSize) {n : Nat}
    (hn : n < (w.pools ()).memoryBlock.numberOfBlocks)
    (hstep : WorldStep blockSize w (.resetThrows () n) w') : ¬SourcesKept blockSize w' := by
  cases hstep with
  | resetThrows k fuel n hidle hdefault hreset =>
    cases hreset
    intro hkept
    obtain ⟨free, hlist, hblocks⟩ := hkept.free_blocks
    have hlist' : ListAt 0 w.heap.loadNext (w.pools ()).head free :=
      hlist.congr (fun p _ => (Heap.loadNext_congr (fun x _ _ => by simp)).symm)
    obtain rfl := hlist'.unique (h.represents ()).list
    obtain ⟨m, hm⟩ : ∃ m, (w.pools ()).memoryBlock.numberOfBlocks = m + 1 :=
      Nat.exists_eq_succ_of_ne_zero (by omega)
    have hlast : (w.pools ()).memoryBlock.beginPtr + m * blockSize ∈ (stackOf ()).free := by
      have hperm := h.partition ()
      rw [hidle, List.append_nil, (h.represents ()).blocks_eq] at hperm
      exact hperm.mem_iff.mpr (mem_blockStarts.mpr ⟨m, by omega, rfl⟩)
    obtain ⟨i, hi, heq⟩ := mem_blockStarts.mp (hblocks _ hlast)
    have hi' : i < n := hi
    have hsame : m * blockSize = i * blockSize := Nat.add_left_cancel heq
    have := Nat.eq_of_mul_eq_mul_right hpos hsame
    omega

end UnguardedResets

section Runs

variable {ι δ : Type*} [DecidableEq ι] [DecidableEq δ]

lemma oneBlock_reset (k : ι) : ∃ es w, (routableSystem 32 ι δ).Run es w ∧
    w.pools k = ⟨4096, ⟨4096, 1⟩⟩ ∧ (∀ j, j ≠ k → w.pools j = MemoryPoolFixedSize.init) ∧
    ∃ stack, stack.top = some 4096 ∧ Represents 32 (w.pools k) w.heap stack := by
  have harena : ValidArena 32 4096 1 := ⟨by norm_num, by norm_num⟩
  obtain ⟨heap, hreset, ⟨hnodup, hrep⟩, -, -⟩ := resetMemoryPool_spec (by decide : sizeofNode ≤ 32)
    (Nat.le_refl 1) harena MemoryPoolFixedSize.init (freshWorld : World ι δ).heap (Nat.le_refl 1)
  let w₁ : World ι δ := { (freshWorld : World ι δ) with
    pools := Function.update (freshWorld : World ι δ).pools k ⟨4096, ⟨4096, 1⟩⟩
    heap := heap }
  have hstep : WorldStep 32 freshWorld (.reset k 4096 1) w₁ :=
    .reset_init (freshWorld_init 32) k harena hreset
  refine ⟨_, w₁, .step (.init (freshWorld_init 32)) ⟨hstep, Nat.le_refl 1⟩,
    Function.update_self _ _ _, fun j hj => Function.update_of_ne hj _ _,
    BlockStack.reset _ hnodup, rfl, ?_⟩
  simpa [w₁] using hrep

lemma oneBlock_run (k : ι) (d : δ) {r : Request} (hsize : r.poolSize ≤ 32) :
    ∃ es w, (routableSystem 32 ι δ).Run es w ∧ ⟨k, d, r, 4096, true⟩ ∈ w.live := by
  obtain ⟨es, w, hrun, -, -, stack, htop, hrep⟩ := @oneBlock_reset ι δ _ _ k
  refine ⟨_, _, .step hrun ⟨.allocate k d r none (fun _ h => by cases h), trivial⟩, ?_⟩
  rw [World.allocate_of_top hrep hsize htop]
  exact List.mem_cons_self

/-- An allocation that is too large for a block, which the default allocator serves. -/
lemma default_run (k : ι) (d : δ) {q : Nat} (hq : 4128 ≤ q) :
    ∃ es w, (routableSystem 32 ι δ).Run es w ∧ ⟨k, d, .bytes 64 8, q, false⟩ ∈ w.live ∧
      (w.pools k).memoryBlock.endPtr 32 = 4128 := by
  obtain ⟨es, w, hrun, hpool, hother, stack, htop, hrep⟩ := @oneBlock_reset ι δ _ _ k
  have hend : (w.pools k).memoryBlock.endPtr 32 = 4128 := by rw [hpool]; rfl
  have hfresh : ∀ p, some q = some p → p ≠ 0 ∧ ∀ j, ¬InArena 32 (w.pools j) p := by
    rintro p ⟨⟩
    refine ⟨by omega, ?_⟩
    intro j hin
    by_cases hj : j = k
    · subst hj
      rw [InArena, hend] at hin
      omega
    · rw [hother j hj] at hin
      exact not_inArena_init hin
  refine ⟨_, _, .step hrun ⟨.allocate k d (.bytes 64 8) (some q) hfresh, trivial⟩, ?_⟩
  rw [World.allocate_default hrep (Or.inl (by decide))]
  exact ⟨List.mem_cons_self, hend⟩

end Runs

/-- Every allocation goes back to its source in all runs whose resets return and in which no
default allocation at the end of the arena is deallocated, exactly when a block has room for
a link. After a reset to no blocks, or one that throws for fewer blocks than there were, the
free list has left the arena. -/
theorem sourcesKept_iff (hpos : 0 < blockSize) :
    ((∀ es w, (routableSystem blockSize Unit Unit).Run es w → SourcesKept blockSize w) ↔
      sizeofNode ≤ blockSize) ∧
    (sizeofNode ≤ blockSize → ∀ es w w', (routableSystem blockSize Unit Unit).Run es w →
      (∀ base, WorldStep blockSize w (.reset () base 0) w' → ¬SourcesKept blockSize w') ∧
      ∀ n, n < (w.pools ()).memoryBlock.numberOfBlocks →
        WorldStep blockSize w (.resetThrows () n) w' → ¬SourcesKept blockSize w') := by
  refine ⟨⟨?_, ?_⟩, ?_⟩
  · intro h
    by_contra hsmall
    obtain ⟨es, w, hrun, hmis⟩ := smallBlocks_misroute hpos (Nat.not_le.mp hsmall)
    exact hmis (h es w hrun)
  · intro hb es w hrun
    obtain ⟨stackOf, h⟩ := WorldRefines.run hb hrun
    exact h.sourcesKept
  · intro hb es w w' hrun
    obtain ⟨stackOf, h⟩ := WorldRefines.run hb hrun
    exact ⟨fun base hstep => hstep.reset_zero_loses,
      fun n hn hstep => h.resetThrows_loses hpos hn hstep⟩

theorem sourcesKept_thirtyTwo : ∃ es w, (routableSystem 32 Unit Unit).Run es w ∧
    ⟨(), (), .bytes 24 8, 4096, true⟩ ∈ w.live ∧ SourcesKept 32 w := by
  obtain ⟨es, w, hrun, hx⟩ := oneBlock_run () () (by decide : (Request.bytes 24 8).poolSize ≤ 32)
  exact ⟨es, w, hrun, hx, (sourcesKept_iff (by decide)).1.mpr (by decide) es w hrun⟩

theorem adjacent_misrouted : ¬∀ es w, (worldSystem 32 Unit Unit).Run es w →
    ∀ x ∈ w.live, RoutesToSource 32 w () x := by
  intro h
  obtain ⟨es, w, hrun, hx, hend⟩ := default_run () () (Nat.le_refl 4128)
  obtain ⟨stackOf, href⟩ := WorldRefines.run (by decide) hrun
  have hroute := ((href.routesToSource_iff hx).mp (h es w hrun.of_restrict _ hx)).2 rfl
  exact hroute.2 hend.symm

/-- `a == b` promises that deallocating `x` through `b` has the same effect as through
`a`, in particular that a block of `a`'s pool goes back there and nothing else changes. -/
def EqualitySound {ι δ : Type*} [DecidableEq ι] [DecidableEq δ] (blockSize : Nat) (w : World ι δ)
    (a b : AllocatorMemoryPoolFixedSize ι δ) (x : Allocation ι δ) : Prop :=
  a.operatorEq b = true →
    w.deallocate blockSize b.memoryPool b.defaultAllocator x =
        w.deallocate blockSize a.memoryPool a.defaultAllocator x ∧
    (x.fromPool = true →
      ((w.deallocate blockSize b.memoryPool b.defaultAllocator x).pools a.memoryPool).head =
        x.pointer ∧
      (∀ k, k ≠ a.memoryPool →
        (w.deallocate blockSize b.memoryPool b.defaultAllocator x).pools k = w.pools k) ∧
      (w.deallocate blockSize b.memoryPool b.defaultAllocator x).defaultLive = w.defaultLive)

/-- Deallocating `x` through `b` reaches the pool and the default allocator that `a` would
reach: the pool is the same, or neither takes the address, and the default allocator is the
same, or the pool takes the address. -/
structure SameRoute {ι δ : Type*} (blockSize : Nat) (w : World ι δ)
    (a b : AllocatorMemoryPoolFixedSize ι δ) (x : Allocation ι δ) : Prop where
  pool : b.memoryPool = a.memoryPool ∨ (x.fromPool = false ∧
    x.pointer ≠ (w.pools a.memoryPool).memoryBlock.endPtr blockSize ∧
    x.pointer ≠ (w.pools b.memoryPool).memoryBlock.endPtr blockSize)
  default : b.defaultAllocator = a.defaultAllocator ∨ x.fromPool = true ∨
    x.pointer = (w.pools a.memoryPool).memoryBlock.endPtr blockSize

section Equality

variable {ι δ : Type*} [DecidableEq ι] [DecidableEq δ] {w : World ι δ}
  {stackOf : ι → BlockStack Nat} {x : Allocation ι δ} {j k : ι} {d : δ}

lemma World.pools_deallocate (blockSize : Nat) (w : World ι δ) (d : δ) (x : Allocation ι δ)
    (hj : j ≠ k) : (w.deallocate blockSize k d x).pools j = w.pools j :=
  Function.update_of_ne hj _ _

namespace WorldRefines

lemma head_ne (h : WorldRefines blockSize w stackOf) {p : Nat} (hp : p ≠ 0)
    (hfree : p ∉ (stackOf j).free) : (w.pools j).head ≠ p := by
  rintro rfl
  exact hfree (List.mem_of_mem_head? ((h.represents j).list.head_eq hp))

lemma end_not_free (h : WorldRefines blockSize w stackOf) (hb : sizeofNode ≤ blockSize) :
    (w.pools k).memoryBlock.endPtr blockSize ∉ (stackOf k).free := by
  intro hfree
  have hbounds := (h.represents k).block_bounds ((stackOf k).free_subset _ hfree)
  simp only [sizeofNode] at hb
  omega

variable {a b : AllocatorMemoryPoolFixedSize ι δ}

lemma equalitySound_block (h : WorldRefines blockSize w stackOf) (hx : x ∈ w.live)
    (hpool : x.fromPool = true) (ha : x.memoryPool = a.memoryPool) :
    EqualitySound blockSize w a b x ↔ b.memoryPool = a.memoryPool := by
  have heq := h.deallocate_block_eq hx hpool
  constructor
  · intro hsound
    by_contra hk
    have hhead : ((w.deallocate blockSize a.memoryPool a.defaultAllocator x).pools
        a.memoryPool).head = x.pointer := by
      rw [← ha, heq, World.head_returnTo]
    rw [← (hsound rfl).1, World.pools_deallocate blockSize w _ x (Ne.symm hk), ← ha] at hhead
    exact h.head_ne ((h.represents _).block_pos (h.block_mem hx hpool)).ne'
      (h.block_not_free hx hpool) hhead
  · intro hk _
    rw [hk, ← ha, heq b.defaultAllocator, heq a.defaultAllocator]
    exact ⟨rfl, fun _ => ⟨World.head_returnTo w _ x, fun j hj => World.pools_returnTo w x hj, rfl⟩⟩

lemma equalitySound_end (h : WorldRefines blockSize w stackOf) (hb : sizeofNode ≤ blockSize)
    (hx : x ∈ w.live) (hpool : x.fromPool = false)
    (hend : x.pointer = (w.pools a.memoryPool).memoryBlock.endPtr blockSize) :
    EqualitySound blockSize w a b x ↔ b.memoryPool = a.memoryPool := by
  constructor
  · intro hsound
    by_contra hk
    have hhead : ((w.deallocate blockSize a.memoryPool a.defaultAllocator x).pools
        a.memoryPool).head = x.pointer := by
      rw [h.deallocate_end_eq hend, World.head_returnTo]
    rw [← (hsound rfl).1, World.pools_deallocate blockSize w _ x (Ne.symm hk)] at hhead
    exact h.head_ne (h.default_out x hx hpool).1 (hend ▸ h.end_not_free hb) hhead
  · intro hk _
    refine ⟨?_, fun hblock => absurd (hpool.symm.trans hblock) Bool.false_ne_true⟩
    rw [hk, h.deallocate_end_eq hend, h.deallocate_end_eq hend]

lemma equalitySound_default (h : WorldRefines blockSize w stackOf) (hb : sizeofNode ≤ blockSize)
    (hx : x ∈ w.live) (hpool : x.fromPool = false) (hd : x.defaultAllocator = a.defaultAllocator)
    (hend : x.pointer ≠ (w.pools a.memoryPool).memoryBlock.endPtr blockSize) :
    EqualitySound blockSize w a b x ↔
      x.pointer ≠ (w.pools b.memoryPool).memoryBlock.endPtr blockSize ∧
        b.defaultAllocator = a.defaultAllocator := by
  have hheld := h.mem_defaultLive hx hpool
  rw [hd] at hheld
  by_cases hend_b : x.pointer = (w.pools b.memoryPool).memoryBlock.endPtr blockSize
  · -- The pool of `b` takes what belongs to a default allocator.
    refine iff_of_false ?_ (fun hboth => hboth.1 hend_b)
    intro hsound
    have hk : b.memoryPool ≠ a.memoryPool := fun hk => hend (hk ▸ hend_b)
    have hhead : ((w.deallocate blockSize b.memoryPool b.defaultAllocator x).pools
        b.memoryPool).head = x.pointer := by
      rw [h.deallocate_end_eq hend_b, World.head_returnTo]
    rw [(hsound rfl).1, World.pools_deallocate blockSize w _ x hk] at hhead
    exact h.head_ne (h.default_out x hx hpool).1 (hend_b ▸ h.end_not_free hb) hhead
  · rw [EqualitySound, h.deallocate_default_eq hx hpool hend_b,
      h.deallocate_default_eq hx hpool hend]
    constructor
    · intro hsound
      refine ⟨hend_b, ?_⟩
      by_contra hne
      have hlive := congrFun (congrArg World.defaultLive (hsound rfl).1) a.defaultAllocator
      simp only [Function.update_self, Function.update_of_ne (Ne.symm hne)] at hlive
      have hlength := congrArg List.length hlive
      rw [List.length_erase_of_mem hheld] at hlength
      have hpos := List.length_pos_of_mem hheld
      omega
    · rintro ⟨-, hsame⟩ -
      rw [hsame]
      exact ⟨rfl, fun hblock => absurd (hpool.symm.trans hblock) Bool.false_ne_true⟩

theorem equalitySound_iff (h : WorldRefines blockSize w stackOf) (hb : sizeofNode ≤ blockSize)
    (hx : x ∈ w.live) (ha : x.memoryPool = a.memoryPool)
    (hd : x.defaultAllocator = a.defaultAllocator) :
    EqualitySound blockSize w a b x ↔ SameRoute blockSize w a b x := by
  cases hpool : x.fromPool with
  | true =>
    rw [h.equalitySound_block hx hpool ha]
    constructor
    · exact fun hk => ⟨Or.inl hk, Or.inr (Or.inl hpool)⟩
    · rintro ⟨hk | hdefault, -⟩
      · exact hk
      · exact absurd (hdefault.1.symm.trans hpool) Bool.false_ne_true
  | false =>
    by_cases hend : x.pointer = (w.pools a.memoryPool).memoryBlock.endPtr blockSize
    · rw [h.equalitySound_end hb hx hpool hend]
      constructor
      · exact fun hk => ⟨Or.inl hk, Or.inr (Or.inr hend)⟩
      · rintro ⟨hk | hdefault, -⟩
        · exact hk
        · exact absurd hend hdefault.2.1
    · rw [h.equalitySound_default hb hx hpool hd hend]
      constructor
      · rintro ⟨hend_b, hsame⟩
        exact ⟨Or.inr ⟨hpool, hend, hend_b⟩, Or.inl hsame⟩
      · rintro ⟨hroute, hsame | hblock | hend'⟩
        · refine ⟨?_, hsame⟩
          rcases hroute with hk | hdefault
          · rw [hk]
            exact hend
          · exact hdefault.2.2
        · exact absurd (hpool.symm.trans hblock) Bool.false_ne_true
        · exact absurd hend' hend

end WorldRefines

/-- In every run whose resets return and whose deallocations are routable, `operator==` keeps
its promise exactly for allocators that reach the same pool and the same default
allocator. -/
theorem equalitySound_iff_sameRoute (hb : sizeofNode ≤ blockSize) {es : List (WorldEvent ι δ)}
    (hrun : (routableSystem blockSize ι δ).Run es w) (hx : x ∈ w.live)
    (a b : AllocatorMemoryPoolFixedSize ι δ) (ha : x.memoryPool = a.memoryPool)
    (hd : x.defaultAllocator = a.defaultAllocator) :
    EqualitySound blockSize w a b x ↔ SameRoute blockSize w a b x := by
  obtain ⟨stackOf, h⟩ := WorldRefines.run hb hrun
  exact h.equalitySound_iff hb hx ha hd

/-- A block of one of two pools, and an allocation of one of two default allocators. -/
theorem equalitySound_twoPools :
    (∃ (w : World Bool Bool) (x : Allocation Bool Bool), x ∈ w.live ∧ x.fromPool = true ∧
      EqualitySound 32 w ⟨true, true⟩ ⟨false, true⟩ x ∧
      ¬EqualitySound 32 w ⟨true, true⟩ ⟨true, false⟩ x) ∧
    ∃ (w : World Bool Bool) (x : Allocation Bool Bool), x ∈ w.live ∧ x.fromPool = false ∧
      EqualitySound 32 w ⟨true, true⟩ ⟨true, true⟩ x ∧
      ¬EqualitySound 32 w ⟨true, true⟩ ⟨false, true⟩ x := by
  constructor
  · obtain ⟨es, w, hrun, hx⟩ :=
      oneBlock_run true true (by decide : (Request.elements 24 1).poolSize ≤ 32)
    refine ⟨w, _, hx, rfl, ?_, ?_⟩
    · rw [equalitySound_iff_sameRoute (by decide) hrun hx ⟨true, true⟩ ⟨false, true⟩ rfl rfl]
      exact ⟨Or.inl rfl, Or.inr (Or.inl rfl)⟩
    · rw [equalitySound_iff_sameRoute (by decide) hrun hx ⟨true, true⟩ ⟨true, false⟩ rfl rfl]
      rintro ⟨hpool, -⟩
      simp at hpool
  · obtain ⟨es, w, hrun, hx, hend⟩ := default_run true true (by decide : 4128 ≤ 8192)
    refine ⟨w, _, hx, rfl, ?_, ?_⟩
    · rw [equalitySound_iff_sameRoute (by decide) hrun hx ⟨true, true⟩ ⟨true, true⟩ rfl rfl]
      exact ⟨Or.inl rfl, Or.inl rfl⟩
    · rw [equalitySound_iff_sameRoute (by decide) hrun hx ⟨true, true⟩ ⟨false, true⟩ rfl rfl]
      rintro ⟨-, hdefault⟩
      simp [hend] at hdefault

theorem equality_unsound : ¬∀ es (w : World Bool Unit), (worldSystem 32 Bool Unit).Run es w →
    ∀ (a b : AllocatorMemoryPoolFixedSize Bool Unit), ∀ x ∈ w.live,
      x.memoryPool = a.memoryPool → x.defaultAllocator = a.defaultAllocator →
        EqualitySound 32 w a b x := by
  intro h
  obtain ⟨es, w, hrun, hx⟩ :=
    oneBlock_run true () (by decide : (Request.elements 24 1).poolSize ≤ 32)
  obtain ⟨stackOf, href⟩ := WorldRefines.run (by decide) hrun
  have hsound := h es w hrun.of_restrict ⟨(), true⟩ ⟨(), false⟩ _ hx rfl rfl
  rw [href.equalitySound_iff (by decide) hx rfl rfl] at hsound
  have hpool := hsound.pool
  simp at hpool

end Equality

end CppBenchmark
