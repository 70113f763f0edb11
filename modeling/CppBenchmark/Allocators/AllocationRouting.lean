import CppBenchmark.Allocators.PoolAllocator

/-!
# Every allocation goes back to its source

`WorldRefines` is the invariant of a world of pools: each pool stores a stack whose free
and live blocks partition it, the arenas are apart, and each default allocator holds
exactly its live default allocations. It is kept by every run whose resets return and whose
deallocations are routable, and there the address test of `ReturnBlock` finds the source of
a pointer.
-/

namespace CppBenchmark

open ByteMemory LinkedList MemoryPoolFixedSize TransitionSystem

variable {blockSize : Nat}

namespace Represents

variable {size p a : Nat} {r : Request} {fresh : Option Nat} {pool : MemoryPoolFixedSize}
  {heap : Heap} {stack : BlockStack Nat}

lemma allocateFrom_of_top (h : Represents blockSize pool heap stack) (hsize : size ≤ blockSize)
    (htop : stack.top = some p) : allocateFrom blockSize size r fresh pool heap =
      (some p, { pool with head := heap.loadNext p }, [.takeBlock size p]) := by
  obtain ⟨rfl, hp⟩ := h.top_eq_some htop
  exact allocateFrom_of_head hsize hp

lemma allocateFrom_none (h : Represents blockSize pool heap stack)
    (hnone : blockSize < size ∨ stack.top = none) : allocateFrom blockSize size r fresh pool heap =
      (fresh, pool, [.takeBlock size 0, .defaultAllocate r fresh]) := by
  exact allocateFrom_default (hnone.imp_right h.top_eq_none)

lemma deallocateTo_of_mem (h : Represents blockSize pool heap stack) (hp : p ∈ stack.blocks) :
    deallocateTo blockSize r p pool heap =
      ({ pool with head := p }, heap.storeNext p pool.head, [.returnBlock p true]) := by
  simp only [deallocateTo, h.returnBlock_of_mem hp]

/-- The pointer just past the arena passes the range test of `ReturnBlock`. -/
lemma deallocateTo_end (h : Represents blockSize pool heap stack)
    (hp : p = pool.memoryBlock.endPtr blockSize) : deallocateTo blockSize r p pool heap =
      ({ pool with head := p }, heap.storeNext p pool.head, [.returnBlock p true]) := by
  have hle : pool.memoryBlock.beginPtr ≤ p := by
    rw [hp, h.endPtr_eq]
    exact Nat.le_add_right _ _
  simp only [deallocateTo, returnBlock, if_pos (And.intro hle hp.le)]

lemma deallocateTo_refused (hout : ¬InArena blockSize pool p)
    (hend : p ≠ pool.memoryBlock.endPtr blockSize) : deallocateTo blockSize r p pool heap =
      (pool, heap, [.returnBlock p false, .defaultDeallocate p r]) := by
  have hrange : ¬(pool.memoryBlock.beginPtr ≤ p ∧ p ≤ pool.memoryBlock.endPtr blockSize) :=
    fun h => hout ⟨h.1, lt_of_le_of_ne h.2 hend⟩
  simp only [deallocateTo, returnBlock, if_neg hrange]

lemma inArena (h : Represents blockSize pool heap stack) (hp : p ∈ stack.blocks) (hlow : p ≤ a)
    (hhigh : a < p + blockSize) : InArena blockSize pool a := by
  have := h.block_bounds hp
  exact ⟨by omega, by omega⟩

end Represents

namespace World

variable {ι δ : Type*} [DecidableEq ι] [DecidableEq δ] {w : World ι δ} {x : Allocation ι δ}
  {k : ι} {d : δ}

@[simp] lemma memoryBlock_allocate (w : World ι δ) (k j : ι) (d : δ) (r : Request)
    (fresh : Option Nat) :
    ((w.allocate blockSize k d r fresh).pools j).memoryBlock = (w.pools j).memoryBlock := by
  have hpool : (allocateFrom blockSize r.poolSize r fresh (w.pools k) w.heap).2.1.memoryBlock =
      (w.pools k).memoryBlock := by
    unfold allocateFrom
    dsimp only
    split_ifs <;> exact takeBlock_memoryBlock ..
  unfold World.allocate
  rw [Request.allocate_eq]
  by_cases hj : j = k
  · subst hj
    simpa using hpool
  · simp [Function.update_of_ne hj]

@[simp] lemma memoryBlock_deallocate (w : World ι δ) (k j : ι) (d : δ) (x : Allocation ι δ) :
    ((w.deallocate blockSize k d x).pools j).memoryBlock = (w.pools j).memoryBlock := by
  have hpool : (deallocateTo blockSize x.request x.pointer (w.pools k) w.heap).1.memoryBlock =
      (w.pools k).memoryBlock := by
    unfold deallocateTo returnBlock
    split_ifs <;> rfl
  unfold World.deallocate
  rw [Request.deallocate_eq]
  by_cases hj : j = k
  · subst hj
    simpa using hpool
  · simp [Function.update_of_ne hj]

lemma inArena_allocate {a : Nat} (k j : ι) (d : δ) (r : Request) (fresh : Option Nat) :
    InArena blockSize ((w.allocate blockSize k d r fresh).pools j) a ↔
      InArena blockSize (w.pools j) a := by
  rw [InArena, memoryBlock_allocate, InArena]

lemma inArena_deallocate {a : Nat} (k j : ι) (d : δ) (x : Allocation ι δ) :
    InArena blockSize ((w.deallocate blockSize k d x).pools j) a ↔
      InArena blockSize (w.pools j) a := by
  rw [InArena, memoryBlock_deallocate, InArena]

omit [DecidableEq ι] in
lemma receive_takeBlock (w : World ι δ) (d : δ) (size p : Nat) :
    w.receive d [.takeBlock size p] = w.defaultLive :=
  Function.update_eq_self d w.defaultLive

omit [DecidableEq ι] in
lemma receive_returnBlock (w : World ι δ) (d : δ) (p : Nat) (accepted : Bool) :
    w.receive d [.returnBlock p accepted] = w.defaultLive :=
  Function.update_eq_self d w.defaultLive

lemma allocate_of_head {r : Request} {fresh : Option Nat} (hsize : r.poolSize ≤ blockSize)
    (hhead : (w.pools k).head ≠ 0) : w.allocate blockSize k d r fresh = { w with
      pools := Function.update w.pools k
        { w.pools k with head := w.heap.loadNext (w.pools k).head }
      live := ⟨k, d, r, (w.pools k).head, true⟩ :: w.live } := by
  simp only [allocate, Request.allocate_eq, allocateFrom_of_head hsize hhead, receive_takeBlock]
  rfl

lemma allocate_of_top {stack : BlockStack Nat} {p : Nat} {r : Request} {fresh : Option Nat}
    (h : Represents blockSize (w.pools k) w.heap stack) (hsize : r.poolSize ≤ blockSize)
    (htop : stack.top = some p) : w.allocate blockSize k d r fresh = { w with
      pools := Function.update w.pools k { w.pools k with head := w.heap.loadNext p }
      live := ⟨k, d, r, p, true⟩ :: w.live } := by
  obtain ⟨rfl, hp⟩ := h.top_eq_some htop
  exact allocate_of_head hsize hp

lemma allocate_default {stack : BlockStack Nat} {r : Request} {fresh : Option Nat}
    (h : Represents blockSize (w.pools k) w.heap stack)
    (hnone : blockSize < r.poolSize ∨ stack.top = none) : w.allocate blockSize k d r fresh = { w with
      live := (fresh.map (fun q => ⟨k, d, r, q, false⟩)).toList ++ w.live
      defaultLive := Function.update w.defaultLive d
        ((fresh.map (fun q => (q, r))).toList ++ w.defaultLive d) } := by
  simp only [allocate, Request.allocate_eq, h.allocateFrom_none hnone, Function.update_eq_self]
  cases fresh <;> rfl

/-- The world after the pool `k` accepted the pointer of `x`. -/
def returnTo (w : World ι δ) (k : ι) (x : Allocation ι δ) : World ι δ :=
  { w with
    pools := Function.update w.pools k { w.pools k with head := x.pointer }
    heap := w.heap.storeNext x.pointer (w.pools k).head
    live := w.live.erase x }

lemma head_returnTo (w : World ι δ) (k : ι) (x : Allocation ι δ) :
    ((w.returnTo k x).pools k).head = x.pointer := by
  simp only [returnTo, Function.update_self]

lemma pools_returnTo (w : World ι δ) (x : Allocation ι δ) {j : ι} (hj : j ≠ k) :
    (w.returnTo k x).pools j = w.pools j :=
  Function.update_of_ne hj _ _

omit [DecidableEq δ] in
lemma mem_liveBlocks (hx : x ∈ w.live) (hpool : x.fromPool = true) :
    x.pointer ∈ w.liveBlocks x.memoryPool :=
  List.mem_map.mpr ⟨x, List.mem_filter.mpr ⟨hx, by simp [hpool]⟩, rfl⟩

/-- The live allocations of a default allocator, as it knows them. -/
def defaultBlocks (w : World ι δ) (d : δ) : List (Nat × Request) :=
  (w.live.filter (fun x => !x.fromPool && decide (x.defaultAllocator = d))).map
    (fun x => (x.pointer, x.request))

@[simp] lemma live_deallocate (w : World ι δ) (k : ι) (d : δ) (x : Allocation ι δ) :
    (w.deallocate blockSize k d x).live = w.live.erase x := rfl

/-- The live allocations of a kind, without `x` and then with it. -/
lemma live_filter_perm {β : Type*} (hx : x ∈ w.live) (p : Allocation ι δ → Bool)
    (f : Allocation ι δ → β) :
    ((if p x then [f x] else []) ++ ((w.live.erase x).filter p).map f).Perm
      ((w.live.filter p).map f) := by
  have h := ((List.perm_cons_erase hx).symm.filter p).map f
  rw [List.filter_cons] at h
  split_ifs at h ⊢
  · exact h
  · exact h

lemma liveBlocks_deallocate (blockSize : Nat) (k : ι) (d : δ) (hx : x ∈ w.live)
    (hpool : x.fromPool = true) (j : ι) :
    ((if j = x.memoryPool then [x.pointer] else []) ++
      (w.deallocate blockSize k d x).liveBlocks j).Perm (w.liveBlocks j) := by
  have h := live_filter_perm hx (fun y => y.fromPool && decide (y.memoryPool = j)) Allocation.pointer
  simpa [liveBlocks, hpool, eq_comm] using h

lemma liveBlocks_deallocate_default (blockSize : Nat) (k : ι) (d : δ) (hx : x ∈ w.live)
    (hpool : x.fromPool = false) (j : ι) :
    ((w.deallocate blockSize k d x).liveBlocks j).Perm (w.liveBlocks j) := by
  have h := live_filter_perm hx (fun y => y.fromPool && decide (y.memoryPool = j)) Allocation.pointer
  simpa [liveBlocks, hpool] using h

/-- A block of a pool is in the hands of no default allocator. -/
lemma defaultBlocks_deallocate (blockSize : Nat) (k : ι) (d : δ) (hx : x ∈ w.live)
    (hpool : x.fromPool = true) (c : δ) :
    ((w.deallocate blockSize k d x).defaultBlocks c).Perm (w.defaultBlocks c) := by
  have h := live_filter_perm hx (fun y => !y.fromPool && decide (y.defaultAllocator = c))
    (fun y => (y.pointer, y.request))
  simpa [defaultBlocks, hpool] using h

lemma defaultBlocks_deallocate_default (blockSize : Nat) (k : ι) (d : δ) (hx : x ∈ w.live)
    (hpool : x.fromPool = false) (c : δ) :
    ((if c = x.defaultAllocator then [(x.pointer, x.request)] else []) ++
      (w.deallocate blockSize k d x).defaultBlocks c).Perm (w.defaultBlocks c) := by
  have h := live_filter_perm hx (fun y => !y.fromPool && decide (y.defaultAllocator = c))
    (fun y => (y.pointer, y.request))
  simpa [defaultBlocks, hpool, eq_comm] using h

end World

/-- The invariant of a world of pools that store the given stacks. -/
structure WorldRefines {ι δ : Type*} [DecidableEq ι] [DecidableEq δ] (blockSize : Nat) (w : World ι δ)
    (stackOf : ι → BlockStack Nat) : Prop where
  represents : ∀ k, Represents blockSize (w.pools k) w.heap (stackOf k)
  partition : ∀ k, ((stackOf k).free ++ w.liveBlocks k).Perm (stackOf k).blocks
  apart : ∀ j k, j ≠ k → ∀ a, InArena blockSize (w.pools j) a → ¬InArena blockSize (w.pools k) a
  default_out : ∀ x ∈ w.live, x.fromPool = false →
    x.pointer ≠ 0 ∧ ∀ k, ¬InArena blockSize (w.pools k) x.pointer
  default_held : ∀ d, (w.defaultBlocks d).Perm (w.defaultLive d)

namespace WorldRefines

variable {ι δ : Type*} [DecidableEq ι] [DecidableEq δ] {w w' : World ι δ}
  {stackOf : ι → BlockStack Nat} {x : Allocation ι δ} {k : ι} {d : δ}

lemma init (hw : (worldSystem blockSize ι δ).init w) :
    WorldRefines blockSize w (fun _ => BlockStack.reset [] List.nodup_nil) where
  represents k := by
    rw [hw.1 k]
    exact Represents.init blockSize w.heap
  partition k := by simp [World.liveBlocks, hw.2.1]
  apart j k _ a hj := by
    rw [hw.1 j] at hj
    exact absurd hj not_inArena_init
  default_out x hx := by simp [hw.2.1] at hx
  default_held d := by simp [World.defaultBlocks, hw.2.1, hw.2.2 d]

lemma nodup (h : WorldRefines blockSize w stackOf) (k : ι) :
    ((stackOf k).free ++ w.liveBlocks k).Nodup :=
  (h.partition k).nodup_iff.mpr (stackOf k).nodup_blocks

lemma block_mem (h : WorldRefines blockSize w stackOf) (hx : x ∈ w.live) (hpool : x.fromPool = true) :
    x.pointer ∈ (stackOf x.memoryPool).blocks :=
  (h.partition _).mem_iff.mp (List.mem_append_right _ (World.mem_liveBlocks hx hpool))

lemma block_not_free (h : WorldRefines blockSize w stackOf) (hx : x ∈ w.live)
    (hpool : x.fromPool = true) : x.pointer ∉ (stackOf x.memoryPool).free :=
  fun hf => (List.nodup_append.mp (h.nodup _)).2.2 _ hf _ (World.mem_liveBlocks hx hpool) rfl

lemma mem_defaultLive (h : WorldRefines blockSize w stackOf) (hx : x ∈ w.live)
    (hpool : x.fromPool = false) : (x.pointer, x.request) ∈ w.defaultLive x.defaultAllocator := by
  apply (h.default_held _).mem_iff.mp
  exact List.mem_map.mpr ⟨x, List.mem_filter.mpr ⟨hx, by simp [hpool]⟩, rfl⟩

lemma represents_of_frame (h : WorldRefines blockSize w stackOf) (hb : sizeofNode ≤ blockSize)
    {heap' : Heap} (j : ι) (hframe : ∀ a, InArena blockSize (w.pools j) a →
      (∀ x ∈ w.live, x.fromPool = true → a < x.pointer ∨ x.pointer + blockSize ≤ a) →
        heap'.memory a = w.heap.memory a) :
    Represents blockSize (w.pools j) heap' (stackOf j) := by
  apply (h.represents j).congr
  intro p hp y hlow hhigh
  have hblock := (stackOf j).free_subset p hp
  have hin := (h.represents j).inArena hblock hlow (by omega)
  apply hframe y hin
  intro x hx hpool
  by_cases hj : x.memoryPool = j
  · have hne : p ≠ x.pointer := by
      rintro rfl
      exact h.block_not_free hx hpool (hj ▸ hp)
    have hxblock := h.block_mem hx hpool
    rw [hj] at hxblock
    have hapart := blockStarts_apart ((h.represents j).mem_blockStarts hblock)
      ((h.represents j).mem_blockStarts hxblock) hne
    omega
  · by_contra hover
    have hxin : InArena blockSize (w.pools x.memoryPool) y :=
      (h.represents x.memoryPool).inArena (h.block_mem hx hpool) (by omega) (by omega)
    exact h.apart _ _ hj y hxin hin

/-- A new arena for one pool that meets no other arena keeps the arenas apart. -/
lemma apart_update (h : WorldRefines blockSize w stackOf) {pool' : MemoryPoolFixedSize}
    (hnew : ∀ j, j ≠ k → ∀ a, InArena blockSize pool' a → ¬InArena blockSize (w.pools j) a) :
    ∀ i j, i ≠ j → ∀ a, InArena blockSize (Function.update w.pools k pool' i) a →
      ¬InArena blockSize (Function.update w.pools k pool' j) a := by
  intro i j hij a hi hj
  by_cases hik : i = k
  · subst hik
    rw [Function.update_self] at hi
    rw [Function.update_of_ne hij.symm] at hj
    exact hnew j hij.symm a hi hj
  · rw [Function.update_of_ne hik] at hi
    by_cases hjk : j = k
    · subst hjk
      rw [Function.update_self] at hj
      exact hnew i hij a hj hi
    · rw [Function.update_of_ne hjk] at hj
      exact h.apart i j hij a hi hj

lemma reset (h : WorldRefines blockSize w stackOf) (hb : sizeofNode ≤ blockSize)
    {fuel base n : Nat} {completion : Completion} {pool' : MemoryPoolFixedSize} {heap' : Heap}
    (hn : 1 ≤ n) (harena : ValidArena blockSize base n) (hidle : w.liveBlocks k = [])
    (hapart : ∀ j, j ≠ k → ∀ a, base ≤ a → a < base + n * blockSize →
      ¬InArena blockSize (w.pools j) a)
    (hdefault : ∀ x ∈ w.live, x.fromPool = false →
      x.pointer < base ∨ base + n * blockSize ≤ x.pointer)
    (hreset : resetMemoryPool blockSize fuel (some base) n (w.pools k) w.heap =
      some (completion, pool', heap')) :
    ∃ stack, WorldRefines blockSize
      { w with pools := Function.update w.pools k pool', heap := heap' }
      (Function.update stackOf k stack) := by
  obtain ⟨-, rfl, ⟨hnodup, hrep⟩, hframe, -⟩ := resetMemoryPool_returned hb hn harena hreset
  have harena_iff : ∀ a, InArena blockSize ⟨base, ⟨base, n⟩⟩ a ↔
      base ≤ a ∧ a < base + n * blockSize := by
    intro a
    rw [InArena, hrep.endPtr_eq]
    rfl
  refine ⟨BlockStack.reset _ hnodup, ?_, ?_, ?_, ?_, h.default_held⟩
  · intro j
    by_cases hj : j = k
    · subst hj
      simpa using hrep
    · simp only [Function.update_of_ne hj]
      apply h.represents_of_frame hb j
      intro a ha _
      have hout := mt (fun hin : base ≤ a ∧ a < base + n * blockSize =>
        hapart j hj a hin.1 hin.2) (not_not.mpr ha)
      exact hframe a (by omega)
  · intro j
    by_cases hj : j = k
    · subst hj
      change (_ ++ w.liveBlocks j).Perm _
      simp [hidle]
    · have hpart := h.partition j
      simp only [Function.update_of_ne hj]
      exact hpart
  · apply h.apart_update
    intro j hj a ha
    obtain ⟨hlow, hhigh⟩ := (harena_iff a).mp ha
    exact hapart j hj a hlow hhigh
  · intro x hx hpool
    refine ⟨(h.default_out x hx hpool).1, ?_⟩
    intro j
    by_cases hj : j = k
    · subst hj
      simp only [Function.update_self, harena_iff]
      have := hdefault x hx hpool
      omega
    · simp only [Function.update_of_ne hj]
      exact (h.default_out x hx hpool).2 j

/-- An allocation that takes the top block of the pool. -/
lemma allocate_block (h : WorldRefines blockSize w stackOf) {r : Request} {fresh : Option Nat}
    {p : Nat} (hsize : r.poolSize ≤ blockSize) (htop : (stackOf k).top = some p) :
    WorldRefines blockSize (w.allocate blockSize k d r fresh)
      (Function.update stackOf k (stackOf k).pop) := by
  have heq : w.allocate blockSize k d r fresh = _ := World.allocate_of_top (h.represents k) hsize htop
  refine ⟨?_, ?_, ?_, ?_, ?_⟩
  · intro j
    rw [heq]
    by_cases hj : j = k
    · subst hj
      simpa using (h.represents j).pop htop
    · simpa only [Function.update_of_ne hj] using h.represents j
  · intro j
    rw [heq]
    by_cases hj : j = k
    · subst hj
      have hpart := h.partition j
      rw [BlockStack.top_eq_some htop] at hpart
      simpa [World.liveBlocks] using List.perm_middle.trans hpart
    · simpa [World.liveBlocks, Function.update_of_ne hj, Ne.symm hj] using h.partition j
  · intro i j hij a
    rw [World.inArena_allocate, World.inArena_allocate]
    exact h.apart i j hij a
  · intro x hx hpool
    simp only [World.inArena_allocate]
    rw [heq] at hx
    rcases List.mem_cons.mp hx with rfl | hx
    · cases hpool
    · exact h.default_out x hx hpool
  · rw [heq]
    simpa [World.defaultBlocks] using h.default_held

/-- An allocation that goes to the default allocator. -/
lemma allocate_default (h : WorldRefines blockSize w stackOf) {r : Request} {fresh : Option Nat}
    (hfresh : ∀ q, fresh = some q → q ≠ 0 ∧ ∀ j, ¬InArena blockSize (w.pools j) q)
    (hnone : blockSize < r.poolSize ∨ (stackOf k).top = none) :
    WorldRefines blockSize (w.allocate blockSize k d r fresh) stackOf := by
  rw [World.allocate_default (h.represents k) hnone]
  cases fresh with
  | none =>
    refine ⟨h.represents, h.partition, h.apart, h.default_out, ?_⟩
    simpa [World.defaultBlocks] using h.default_held
  | some q =>
    refine ⟨h.represents, ?_, h.apart, ?_, ?_⟩
    · intro j
      simpa [World.liveBlocks] using h.partition j
    · intro x hx hpool
      rcases List.mem_cons.mp hx with rfl | hx
      · exact hfresh q rfl
      · exact h.default_out x hx hpool
    · intro c
      have hheld := h.default_held c
      by_cases hc : c = d
      · subst hc
        simpa [World.defaultBlocks] using hheld
      · simpa [World.defaultBlocks, Function.update_of_ne hc, Ne.symm hc] using hheld

lemma allocate (h : WorldRefines blockSize w stackOf) (r : Request) {fresh : Option Nat}
    (hfresh : ∀ q, fresh = some q → q ≠ 0 ∧ ∀ j, ¬InArena blockSize (w.pools j) q) :
    ∃ stack, WorldRefines blockSize (w.allocate blockSize k d r fresh)
      (Function.update stackOf k stack) := by
  by_cases htake : r.poolSize ≤ blockSize ∧ ∃ p, (stackOf k).top = some p
  · obtain ⟨hsize, p, htop⟩ := htake
    exact ⟨_, h.allocate_block hsize htop⟩
  · have hnone : blockSize < r.poolSize ∨ (stackOf k).top = none := by
      rcases Nat.lt_or_ge blockSize r.poolSize with hlt | hsize
      · exact Or.inl hlt
      · cases htop : (stackOf k).top with
        | none => exact Or.inr rfl
        | some p => exact absurd ⟨hsize, p, htop⟩ htake
    refine ⟨stackOf k, ?_⟩
    rw [Function.update_eq_self]
    exact h.allocate_default hfresh hnone

/-- A block goes back to its pool, whatever the default allocator. -/
lemma deallocate_block_eq (h : WorldRefines blockSize w stackOf) (hx : x ∈ w.live)
    (hpool : x.fromPool = true) (d : δ) :
    w.deallocate blockSize x.memoryPool d x = w.returnTo x.memoryPool x := by
  simp only [World.deallocate, Request.deallocate_eq,
    (h.represents _).deallocateTo_of_mem (h.block_mem hx hpool), World.receive_returnBlock]
  rfl

/-- So does what lies at the end of a pool's arena. -/
lemma deallocate_end_eq (h : WorldRefines blockSize w stackOf)
    (hend : x.pointer = (w.pools k).memoryBlock.endPtr blockSize) (d : δ) :
    w.deallocate blockSize k d x = w.returnTo k x := by
  simp only [World.deallocate, Request.deallocate_eq, (h.represents k).deallocateTo_end hend,
    World.receive_returnBlock]
  rfl

lemma deallocate_block (h : WorldRefines blockSize w stackOf) (hb : sizeofNode ≤ blockSize)
    (hx : x ∈ w.live) (hpool : x.fromPool = true) :
    ∃ stack, WorldRefines blockSize (w.deallocate blockSize x.memoryPool d x)
      (Function.update stackOf x.memoryPool stack) := by
  have hblock := h.block_mem hx hpool
  have hfree := h.block_not_free hx hpool
  have hrep := h.represents x.memoryPool
  have heq := h.deallocate_block_eq hx hpool d
  have hdefault := World.defaultBlocks_deallocate blockSize x.memoryPool d hx hpool
  refine ⟨(stackOf x.memoryPool).push x.pointer hblock hfree, ?_, ?_, ?_, ?_, ?_⟩
  · intro j
    rw [heq]
    by_cases hj : j = x.memoryPool
    · subst hj
      simpa [World.returnTo] using hrep.push hb hblock hfree
    · simp only [World.returnTo, Function.update_of_ne hj]
      apply h.represents_of_frame hb j
      intro a ha hlive
      exact Heap.storeNext_outside w.heap (by have := hlive x hx hpool; omega)
  · intro j
    have hlive := World.liveBlocks_deallocate blockSize x.memoryPool d hx hpool j
    by_cases hj : j = x.memoryPool
    · subst hj
      rw [if_pos rfl] at hlive
      rw [Function.update_self, BlockStack.free_push, BlockStack.blocks_push]
      exact (List.perm_middle.symm.trans (hlive.append_left _)).trans (h.partition _)
    · rw [if_neg hj] at hlive
      rw [Function.update_of_ne hj]
      exact (hlive.append_left _).trans (h.partition j)
  · intro i j hij a
    rw [World.inArena_deallocate, World.inArena_deallocate]
    exact h.apart i j hij a
  · intro y hy hpool
    simp only [World.inArena_deallocate]
    exact h.default_out y (List.mem_of_mem_erase hy) hpool
  · intro c
    apply (hdefault c).trans
    rw [heq]
    exact h.default_held c

lemma deallocate_default_eq (h : WorldRefines blockSize w stackOf) (hx : x ∈ w.live)
    (hpool : x.fromPool = false) (hend : x.pointer ≠ (w.pools k).memoryBlock.endPtr blockSize) :
    w.deallocate blockSize k d x = { w with
      live := w.live.erase x
      defaultLive := Function.update w.defaultLive d
        ((w.defaultLive d).erase (x.pointer, x.request)) } := by
  simp only [World.deallocate, Request.deallocate_eq,
    Represents.deallocateTo_refused ((h.default_out x hx hpool).2 k) hend, Function.update_eq_self]
  rfl

lemma deallocate_default (h : WorldRefines blockSize w stackOf) (hx : x ∈ w.live)
    (hpool : x.fromPool = false) (hend : x.pointer ≠ (w.pools k).memoryBlock.endPtr blockSize) :
    WorldRefines blockSize (w.deallocate blockSize k x.defaultAllocator x) stackOf := by
  have heq : w.deallocate blockSize k x.defaultAllocator x = _ :=
    h.deallocate_default_eq hx hpool hend
  refine ⟨?_, ?_, ?_, ?_, ?_⟩
  · rw [heq]
    exact h.represents
  · intro j
    have hlive := World.liveBlocks_deallocate_default blockSize k x.defaultAllocator hx hpool j
    exact (hlive.append_left _).trans (h.partition j)
  · rw [heq]
    exact h.apart
  · intro y hy hpool
    rw [heq]
    exact h.default_out y (List.mem_of_mem_erase hy) hpool
  · intro c
    have hheld := (World.defaultBlocks_deallocate_default blockSize k x.defaultAllocator hx hpool
      c).trans (h.default_held c)
    by_cases hc : c = x.defaultAllocator
    · subst hc
      have herase := hheld.erase (x.pointer, x.request)
      rw [if_pos rfl, List.singleton_append, List.erase_cons_head] at herase
      rw [heq] at herase ⊢
      simpa using herase
    · rw [if_neg hc, List.nil_append] at hheld
      rw [heq] at hheld ⊢
      simpa only [Function.update_of_ne hc] using hheld

lemma write (h : WorldRefines blockSize w stackOf) (hb : sizeofNode ≤ blockSize) {a : Nat} {v : UInt8}
    (hown : (∀ k, ¬InArena blockSize (w.pools k) a) ∨
      ∃ x ∈ w.live, x.fromPool = true ∧ x.pointer ≤ a ∧ a < x.pointer + blockSize) :
    WorldRefines blockSize { w with heap := w.heap.setByte a v } stackOf := by
  refine ⟨?_, h.partition, h.apart, h.default_out, h.default_held⟩
  intro j
  apply h.represents_of_frame hb j
  intro y hy hlive
  apply Heap.setByte_ne w.heap
  rintro rfl
  rcases hown with hout | ⟨x, hx, hpool, hlow, hhigh⟩
  · exact hout j hy
  · have := hlive x hx hpool
    omega

theorem step (h : WorldRefines blockSize w stackOf) (hb : sizeofNode ≤ blockSize)
    {e : WorldEvent ι δ} (hstep : WorldStep blockSize w e w') (hgood : RoutableStep blockSize w e) :
    ∃ stackOf', WorldRefines blockSize w' stackOf' := by
  cases hstep with
  | reset k fuel base n harena hidle hapart hdefault hreset =>
    obtain ⟨stack, h'⟩ := h.reset hb hgood harena hidle hapart hdefault hreset
    exact ⟨_, h'⟩
  | resetThrows => exact hgood.elim
  | allocate k d r fresh hfresh =>
    obtain ⟨stack, h'⟩ := h.allocate r hfresh
    exact ⟨_, h'⟩
  | deallocate k d x hx =>
    cases hpool : x.fromPool with
    | true =>
      obtain rfl : k = x.memoryPool := hgood.1 hpool
      obtain ⟨stack, h'⟩ := h.deallocate_block hb hx hpool
      exact ⟨_, h'⟩
    | false =>
      obtain ⟨rfl, hend⟩ := hgood.2 hpool
      exact ⟨_, h.deallocate_default hx hpool hend⟩
  | write a v hown => exact ⟨_, h.write hb hown⟩

theorem run (hb : sizeofNode ≤ blockSize) {es : List (WorldEvent ι δ)}
    (hrun : (routableSystem blockSize ι δ).Run es w) :
    ∃ stackOf, WorldRefines blockSize w stackOf := by
  apply hrun.invariant (P := fun w => ∃ stackOf, WorldRefines blockSize w stackOf)
  · exact fun w hw => ⟨_, init hw⟩
  · rintro w e w' ⟨stackOf, h⟩ hstep
    exact h.step hb hstep.1 hstep.2

end WorldRefines

end CppBenchmark
