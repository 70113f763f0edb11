import CppBenchmark.Allocators.AllocatorContracts

/-!
# What an allocation promises its client

The pool is asked only for a number of bytes. It does not see the alignment, and the
number of bytes of `n` elements wraps around before it is compared with the block size.
Each promise to the client holds exactly where these two do not matter.
-/

namespace CppBenchmark

open MemoryPoolFixedSize TransitionSystem

section Size

/-- A block of the pool is large enough for `n` elements, and larger requests go to the
default allocator. -/
structure BigEnough (blockSize sizeofT n : Nat) (fresh : Option Nat) (pool : MemoryPoolFixedSize)
    (heap : Heap) : Prop where
  pool_block : (∀ c ∈ (AllocatorMemoryPoolFixedSize.allocate blockSize sizeofT n fresh pool
    heap).2.2, c.isDefault = false) → n * sizeofT ≤ blockSize
  default_block : blockSize < n * sizeofT → Call.defaultAllocate (.elements sizeofT n) fresh ∈
    (AllocatorMemoryPoolFixedSize.allocate blockSize sizeofT n fresh pool heap).2.2

variable {blockSize sizeofT n : Nat} {fresh : Option Nat} {pool : MemoryPoolFixedSize} {heap : Heap}

lemma bigEnough_of_default (hnone : blockSize < n * sizeofT % 2 ^ 64 ∨ pool.head = 0) :
    BigEnough blockSize sizeofT n fresh pool heap := by
  constructor
  · intro hpool
    rw [AllocatorMemoryPoolFixedSize.allocate, allocateFrom_default hnone] at hpool
    simpa [Call.isDefault] using hpool (.defaultAllocate (.elements sizeofT n) fresh) (by simp)
  · intro _
    rw [AllocatorMemoryPoolFixedSize.allocate, allocateFrom_default hnone]
    simp

lemma not_bigEnough (hhead : pool.head ≠ 0) (hlarge : blockSize < n * sizeofT)
    (hwrap : n * sizeofT % 2 ^ 64 ≤ blockSize) :
    ¬BigEnough blockSize sizeofT n fresh pool heap := by
  intro h
  have hmem := h.default_block hlarge
  rw [AllocatorMemoryPoolFixedSize.allocate, allocateFrom_of_head hwrap hhead] at hmem
  simp at hmem

/-- The pool's blocks are large enough exactly when there is no block to hand out, or the
elements fit into one, or their wrapped size does not. -/
theorem bigEnough_iff (blockSize sizeofT n : Nat) (fresh : Option Nat) (pool : MemoryPoolFixedSize)
    (heap : Heap) : BigEnough blockSize sizeofT n fresh pool heap ↔
      pool.head = 0 ∨ n * sizeofT ≤ blockSize ∨ blockSize < n * sizeofT % 2 ^ 64 := by
  constructor
  · intro h
    by_contra hcond
    rw [not_or, not_or, Nat.not_le, Nat.not_lt] at hcond
    exact not_bigEnough hcond.1 hcond.2.1 hcond.2.2 h
  · rintro (hhead | hsize | hlarge)
    · exact bigEnough_of_default (Or.inr hhead)
    · exact ⟨fun _ => hsize, fun hlarge => absurd hsize (Nat.not_le.mpr hlarge)⟩
    · exact bigEnough_of_default (Or.inl hlarge)

/-- The bytes of `2 ^ 61` elements of eight bytes wrap around to none, which fit. -/
theorem wrapped_size_takes_block : ¬BigEnough 32 8 (2 ^ 61) none ⟨4096, ⟨4096, 1⟩⟩
    ⟨fun _ => 0, [4096], [], []⟩ :=
  not_bigEnough (by decide) (by norm_num) (by norm_num)

end Size

/-- The alignment asked for: `alignofT` is `alignof(T)` of the element type. -/
def Request.alignment (alignofT : Nat) : Request → Nat
  | .elements _ _ => alignofT
  | .bytes _ iAlignment => iAlignment

/-- The array `new` returns memory aligned to 16 bytes. -/
def AlignedNew {ι δ : Type*} : WorldEvent ι δ → Prop
  | .reset _ base _ => 16 ∣ base
  | _ => True

def alignedSystem (blockSize : Nat) (ι δ : Type*) [DecidableEq ι] [DecidableEq δ] :
    TransitionSystem (World ι δ) (WorldEvent ι δ) :=
  (worldSystem blockSize ι δ).restrict (fun w e => RoutableStep blockSize w e ∧ AlignedNew e)

/-- In every run, what is returned for the request is as aligned as asked for, if the
default allocator honours the alignment. -/
def AlwaysAligned (blockSize alignofT : Nat) (ι δ : Type*) [DecidableEq ι] [DecidableEq δ]
    (r : Request) : Prop :=
  ∀ es w, (alignedSystem blockSize ι δ).Run es w → ∀ (k : ι) (fresh : Option Nat),
    (∀ q, fresh = some q → r.alignment alignofT ∣ q) →
      ∀ p, (r.allocate blockSize fresh (w.pools k) w.heap).1 = some p → r.alignment alignofT ∣ p

/-- An arena of `n` blocks fits into the address space. -/
def ArenaFits (blockSize n : Nat) : Prop := 16 + n * blockSize < 2 ^ 64

/-- Every block of every arena is aligned to `a`. -/
structure BlocksAligned (blockSize a : Nat) : Prop where
  first : ArenaFits blockSize 1 → a ∣ 16
  second : ArenaFits blockSize 2 → a ∣ blockSize
  room : a = 1 ∨ sizeofNode ≤ blockSize

section Alignment

variable {ι δ : Type*} [DecidableEq ι] [DecidableEq δ] {blockSize a : Nat} {w : World ι δ}
  {r : Request}

lemma WorldStep.arenas_aligned {w' : World ι δ} {e : WorldEvent ι δ}
    (hstep : WorldStep blockSize w e w')
    (hnew : AlignedNew e) (h : ∀ j, 16 ∣ (w.pools j).memoryBlock.beginPtr) :
    ∀ j, 16 ∣ (w'.pools j).memoryBlock.beginPtr := by
  intro j
  cases hstep with
  | reset k fuel base n harena hidle hapart hdefault hreset =>
    obtain ⟨rfl, -⟩ := resetMemoryPool_frame hreset
    by_cases hj : j = k
    · subst hj
      simpa [MemoryBlock.beginPtr] using (show 16 ∣ base from hnew)
    · simpa [Function.update_of_ne hj] using h j
  | resetThrows k fuel n hidle hdefault hreset =>
    cases hreset
    by_cases hj : j = k
    · subst hj
      simpa [MemoryBlock.beginPtr] using h j
    · simpa [Function.update_of_ne hj] using h j
  | allocate k d r fresh => rw [World.memoryBlock_allocate]; exact h j
  | deallocate k d x => rw [World.memoryBlock_deallocate]; exact h j
  | write => exact h j

/-- In every run the pools store stacks of blocks in aligned arenas. -/
lemma alignedSystem_run (hb : sizeofNode ≤ blockSize) {es : List (WorldEvent ι δ)}
    (hrun : (alignedSystem blockSize ι δ).Run es w) :
    (∃ stackOf, WorldRefines blockSize w stackOf) ∧ ∀ j, 16 ∣ (w.pools j).memoryBlock.beginPtr := by
  apply hrun.invariant (P := fun w => (∃ stackOf, WorldRefines blockSize w stackOf) ∧
    ∀ j, 16 ∣ (w.pools j).memoryBlock.beginPtr)
  · intro w hw
    refine ⟨⟨_, WorldRefines.init hw⟩, ?_⟩
    intro j
    rw [hw.1 j]
    exact Nat.dvd_zero 16
  · rintro w e w' ⟨⟨stackOf, href⟩, haligned⟩ ⟨hstep, hroutable, hnew⟩
    exact ⟨href.step hb hstep hroutable, hstep.arenas_aligned hnew haligned⟩

/-- The block starts of an aligned arena are aligned to whatever divides 16 and the block
size. -/
lemma BlocksAligned.dvd_block {pool : MemoryPoolFixedSize} {p : Nat}
    (haligned : BlocksAligned blockSize a) (hbase : 16 ∣ pool.memoryBlock.beginPtr)
    (hpos : 0 < pool.memoryBlock.beginPtr)
    (hend : pool.memoryBlock.beginPtr + pool.memoryBlock.numberOfBlocks * blockSize < 2 ^ 64)
    (hp : p ∈ pool.blockStarts blockSize) : a ∣ p := by
  obtain ⟨i, hi, rfl⟩ := mem_blockStarts.mp hp
  have hsixteen := Nat.le_of_dvd hpos hbase
  have hle : (i + 1) * blockSize ≤ pool.memoryBlock.numberOfBlocks * blockSize :=
    Nat.mul_le_mul_right _ hi
  have hfirst : ArenaFits blockSize (i + 1) := by
    unfold ArenaFits
    omega
  cases i with
  | zero =>
    rw [Nat.zero_mul, Nat.add_zero]
    exact (haligned.first hfirst).trans hbase
  | succ i =>
    have hmono : ∀ m, m ≤ i + 1 + 1 → ArenaFits blockSize m := by
      intro m hm
      have := Nat.mul_le_mul_right blockSize hm
      unfold ArenaFits at hfirst ⊢
      omega
    have hsize := haligned.second (hmono 2 (by omega))
    exact ((haligned.first (hmono 1 (by omega))).trans hbase).add (hsize.mul_left (i + 1))

lemma alwaysAligned_of_blocksAligned {alignofT : Nat}
    (haligned : BlocksAligned blockSize (r.alignment alignofT)) :
    AlwaysAligned blockSize alignofT ι δ r := by
  intro es w hrun k fresh hfresh p hp
  rcases haligned.room with hone | hb
  · rw [hone]
    exact one_dvd p
  · obtain ⟨⟨stackOf, href⟩, hbase⟩ := alignedSystem_run hb hrun
    have hrep := href.represents k
    rw [Request.allocate_eq] at hp
    by_cases htake : r.poolSize ≤ blockSize ∧ ∃ x, (stackOf k).top = some x
    · obtain ⟨hsize, x, htop⟩ := htake
      rw [hrep.allocateFrom_of_top hsize htop] at hp
      obtain rfl := Option.some.inj hp
      have hblock := (stackOf k).free_subset _ (List.mem_of_mem_head? htop)
      have hstart := hrep.mem_blockStarts hblock
      obtain ⟨i, hi, -⟩ := mem_blockStarts.mp hstart
      exact haligned.dvd_block (hbase k) (hrep.begin_pos (by omega)) hrep.arena_lt hstart
    · have hnone : blockSize < r.poolSize ∨ (stackOf k).top = none := by
        rw [not_and_or, Nat.not_le, not_exists] at htake
        exact htake.imp_right Option.eq_none_iff_forall_ne_some.mpr
      rw [hrep.allocateFrom_none hnone] at hp
      exact hfresh p hp

section Misaligned

variable {alignofT : Nat} {es : List (WorldEvent ι δ)} {k : ι}

lemma alignedSystem_reset (hinit : (worldSystem blockSize ι δ).init w) (k : ι) {fuel base n : Nat}
    {pool' : MemoryPoolFixedSize} {heap' : Heap} (hn : 1 ≤ n) (hbase : 16 ∣ base)
    (harena : ValidArena blockSize base n)
    (hreset : resetMemoryPool blockSize fuel (some base) n (w.pools k) w.heap =
      some (.returned, pool', heap')) :
    (alignedSystem blockSize ι δ).Run [.reset k base n]
      { w with pools := Function.update w.pools k pool', heap := heap' } :=
  .step (.init hinit) ⟨.reset_init hinit k harena hreset, hn, hbase⟩

lemma alignedSystem_allocate (hrun : (alignedSystem blockSize ι δ).Run es w) (k : ι) (d : δ)
    (r : Request) : (alignedSystem blockSize ι δ).Run (.allocate k d r none :: es)
      (w.allocate blockSize k d r none) :=
  .step hrun ⟨.allocate k d r none (fun _ h => by cases h), trivial, trivial⟩

lemma AlwaysAligned.dvd_head (h : AlwaysAligned blockSize alignofT ι δ r)
    (hrun : (alignedSystem blockSize ι δ).Run es w) (hsize : r.poolSize ≤ blockSize)
    (hhead : (w.pools k).head ≠ 0) : r.alignment alignofT ∣ (w.pools k).head := by
  refine h es w hrun k none (fun _ h => by cases h) _ ?_
  rw [Request.allocate_eq, allocateFrom_of_head hsize hhead]

/-- After one allocation the head is the link of the first block. -/
lemma AlwaysAligned.dvd_next [Inhabited δ] (h : AlwaysAligned blockSize alignofT ι δ r)
    (hrun : (alignedSystem blockSize ι δ).Run es w) (hsize : r.poolSize ≤ blockSize)
    (hhead : (w.pools k).head ≠ 0) (hnext : w.heap.loadNext (w.pools k).head ≠ 0) :
    r.alignment alignofT ∣ w.heap.loadNext (w.pools k).head := by
  have hrun' := alignedSystem_allocate hrun k default r
  rw [World.allocate_of_head hsize hhead] at hrun'
  have hdvd := h.dvd_head (k := k) hrun' hsize (by simpa using hnext)
  simpa using hdvd

lemma AlwaysAligned.first (h : AlwaysAligned blockSize alignofT ι δ r) (k : ι)
    (hsize : r.poolSize ≤ blockSize) (hfit : ArenaFits blockSize 1) :
    r.alignment alignofT ∣ 16 := by
  have hrun := alignedSystem_reset (δ := δ) (freshWorld_init blockSize) k (Nat.le_refl 1)
    (dvd_refl 16) ⟨by norm_num, hfit⟩ (resetMemoryPool_one blockSize 16 _ _)
  simpa using h.dvd_head (k := k) hrun hsize (by simp)

lemma AlwaysAligned.second [Inhabited δ] (h : AlwaysAligned blockSize alignofT ι δ r) (k : ι)
    (hb : sizeofNode ≤ blockSize) (hsize : r.poolSize ≤ blockSize) (hfit : ArenaFits blockSize 2) :
    r.alignment alignofT ∣ blockSize := by
  have hone : ArenaFits blockSize 1 := by
    unfold ArenaFits at hfit ⊢
    omega
  have hpos := pos_of_sizeofNode_le hb
  have hrun := alignedSystem_reset (δ := δ) (freshWorld_init blockSize) k (by decide : 1 ≤ 2)
    (dvd_refl 16) ⟨by norm_num, hfit⟩ (resetMemoryPool_two hpos hfit _ _)
  have hlink : ∀ heap : Heap, ((heap.storeNext 16 (16 + blockSize)).storeNext (16 + blockSize)
      0).loadNext 16 = 16 + blockSize := by
    intro heap
    rw [Heap.loadNext_storeNext_disjoint _ (by omega), Heap.loadNext_storeNext]
    unfold ArenaFits at hfit
    omega
  have hdvd := h.dvd_next (k := k) hrun hsize (by simp) (by simp [hlink])
  simp only [Function.update_self, hlink] at hdvd
  exact (Nat.dvd_add_right (h.first k hsize hone)).mp hdvd

/-- A heap with an odd number stored at the address `blockSize`. -/
def oddHeap (blockSize : Nat) : Heap := ⟨fun x => if x = blockSize then 3 else 0, [], [], []⟩

lemma loadNext_oddHeap (hpos : 0 < blockSize) (hsmall : blockSize < sizeofNode) :
    ((((oddHeap blockSize).newArray smallArena).storeNext smallArena
      (smallArena + blockSize)).storeNext (smallArena + blockSize) 0).loadNext smallArena =
        blockSize := by
  simp only [sizeofNode] at hsmall
  interval_cases blockSize <;> decide +kernel

lemma loadNext_oddHeap_small (hpos : 0 < blockSize) (hsmall : blockSize < sizeofNode) :
    ((((oddHeap blockSize).newArray smallArena).storeNext smallArena
      (smallArena + blockSize)).storeNext (smallArena + blockSize) 0).loadNext blockSize = 3 := by
  simp only [sizeofNode] at hsmall
  interval_cases blockSize <;> decide +kernel

/-- With blocks too small for a link the third block handed out is read from memory the
pool does not own. -/
lemma AlwaysAligned.room [Inhabited δ] (h : AlwaysAligned blockSize alignofT ι δ r) (k : ι)
    (hpos : 0 < blockSize) (hsmall : blockSize < sizeofNode) (hsize : r.poolSize ≤ blockSize) :
    r.alignment alignofT = 1 := by
  have hlt := hsmall
  simp only [sizeofNode] at hlt
  have hfirst := h.first k hsize (by unfold ArenaFits; omega)
  have hend : smallArena + 2 * blockSize < 2 ^ 64 := by simp only [smallArena]; omega
  have hlink := loadNext_oddHeap hpos hsmall
  have hodd := loadNext_oddHeap_small hpos hsmall
  have hinit : (worldSystem blockSize ι δ).init { freshWorld with heap := oddHeap blockSize } :=
    ⟨fun _ => rfl, rfl, fun _ => rfl⟩
  have hreset := alignedSystem_reset hinit k (by decide : 1 ≤ 2) (by decide : 16 ∣ smallArena)
    ⟨by decide, hend⟩ (resetMemoryPool_two hpos hend _ _)
  have hrun := alignedSystem_allocate hreset k default r
  rw [World.allocate_of_head hsize (by simp [smallArena])] at hrun
  have hthree : r.alignment alignofT ∣ 3 := by
    have hdelete : (oddHeap blockSize).deleteArray MemoryPoolFixedSize.init.memoryBlock.blocks =
        oddHeap blockSize := rfl
    have hdvd := h.dvd_next (k := k) hrun hsize
      (by simpa [freshWorld, hdelete, hlink] using hpos.ne')
      (by simp [freshWorld, hdelete, hlink, hodd])
    simpa [freshWorld, hdelete, hlink, hodd] using hdvd
  exact Nat.eq_one_of_dvd_coprimes (by decide : Nat.Coprime 3 16) hthree hfirst

end Misaligned

/-- What is returned for a request is always aligned exactly when the pool is never used
for it, or every block of every arena is aligned. -/
theorem alwaysAligned_iff [Inhabited ι] [Inhabited δ] (hpos : 0 < blockSize) (alignofT : Nat)
    (r : Request) :
    AlwaysAligned blockSize alignofT ι δ r ↔
      blockSize < r.poolSize ∨ BlocksAligned blockSize (r.alignment alignofT) := by
  constructor
  · intro h
    rcases Nat.lt_or_ge blockSize r.poolSize with hlarge | hsize
    · exact Or.inl hlarge
    · rcases Nat.lt_or_ge blockSize sizeofNode with hsmall | hb
      · have hone := h.room default hpos hsmall hsize
        rw [hone]
        exact Or.inr ⟨fun _ => one_dvd 16, fun _ => one_dvd blockSize, Or.inl rfl⟩
      · exact Or.inr ⟨h.first default hsize, h.second default hb hsize, Or.inr hb⟩
  · rintro (hlarge | haligned)
    · intro es w hrun k fresh hfresh p hp
      rw [Request.allocate_eq, allocateFrom_default (Or.inl hlarge)] at hp
      exact hfresh p hp
    · exact alwaysAligned_of_blocksAligned haligned

theorem alwaysAligned_sixteen : AlwaysAligned 32 8 Unit Unit (.bytes 24 16) := by
  apply (alwaysAligned_iff (by decide) 8 (.bytes 24 16)).mpr
  right
  exact ⟨fun _ => dvd_refl 16, fun _ => by decide, Or.inr (by decide)⟩

/-- With blocks of 24 bytes the second block of a pool is not aligned to 16 bytes. -/
theorem second_block_misaligned : ¬AlwaysAligned 24 8 Unit Unit (.bytes 16 16) := by
  intro h
  have hdvd := h.second () (by decide) (by decide) (by norm_num [ArenaFits])
  exact absurd hdvd (by decide)

end Alignment

end CppBenchmark
