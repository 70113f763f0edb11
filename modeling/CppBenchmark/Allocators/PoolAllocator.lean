import CppBenchmark.Allocators.PoolRefinement

/-!
# Allocators on fixed-size pools

`AllocatorMemoryPoolFixedSize` and `MemoryResourceMemoryPoolFixedSize` ask a pool first
and fall back to a default allocator; on deallocation the address decides who gets the
pointer back. Default allocators are outside: their answers are arguments, and the calls
made to them are recorded. Any number of pools share one heap, and any number of default
allocators stand behind them.
-/

namespace CppBenchmark

open ByteMemory MemoryPoolFixedSize TransitionSystem

/-- The arguments of an allocation: a count of elements of a type of `sizeofT` bytes for
the allocator, bytes and alignment for the memory resource. -/
inductive Request
  | elements (sizeofT iNumberOfElements : Nat)
  | bytes (iBytes iAlignment : Nat)
  deriving DecidableEq

inductive Call
  | takeBlock (size p : Nat)
  | returnBlock (p : Nat) (accepted : Bool)
  | defaultAllocate (r : Request) (result : Option Nat)
  | defaultDeallocate (p : Nat) (r : Request)
  deriving DecidableEq

/-- Asks the pool for `size` bytes, and the default allocator when the pool has no block.
`fresh` is the default allocator's answer, `none` when it throws. -/
def allocateFrom (blockSize size : Nat) (r : Request) (fresh : Option Nat)
    (pool : MemoryPoolFixedSize) (heap : Heap) : Option Nat × MemoryPoolFixedSize × List Call :=
  let (pResult, pool) := takeBlock blockSize size pool heap
  if pResult ≠ 0 then (some pResult, pool, [.takeBlock size pResult])
  else (fresh, pool, [.takeBlock size pResult, .defaultAllocate r fresh])

section AllocateFrom

variable {blockSize size : Nat} {r : Request} {fresh : Option Nat} {pool : MemoryPoolFixedSize}
  {heap : Heap}

lemma allocateFrom_of_head (hsize : size ≤ blockSize) (hhead : pool.head ≠ 0) :
    allocateFrom blockSize size r fresh pool heap =
      (some pool.head, { pool with head := heap.loadNext pool.head },
        [.takeBlock size pool.head]) := by
  simp only [allocateFrom, takeBlock, if_pos (And.intro hsize hhead)]
  exact if_pos hhead

lemma allocateFrom_default (hnone : blockSize < size ∨ pool.head = 0) :
    allocateFrom blockSize size r fresh pool heap =
      (fresh, pool, [.takeBlock size 0, .defaultAllocate r fresh]) := by
  have hcond : ¬(size ≤ blockSize ∧ pool.head ≠ 0) := by omega
  simp only [allocateFrom, takeBlock, if_neg hcond]
  exact if_neg (fun hne => hne rfl)

end AllocateFrom

def deallocateTo (blockSize : Nat) (r : Request) (iPointer : Nat) (pool : MemoryPoolFixedSize)
    (heap : Heap) : MemoryPoolFixedSize × Heap × List Call :=
  match returnBlock blockSize iPointer pool heap with
  | (true, pool, heap) => (pool, heap, [.returnBlock iPointer true])
  | (false, pool, heap) => (pool, heap, [.returnBlock iPointer false, .defaultDeallocate iPointer r])

/-- `AllocatorMemoryPoolFixedSize<T, BlockSize, DefaultAllocator>`: its base, by the memory
that it serves, and a reference to one of the pools. -/
structure AllocatorMemoryPoolFixedSize (ι δ : Type*) where
  defaultAllocator : δ
  memoryPool : ι

namespace AllocatorMemoryPoolFixedSize

def allocate (blockSize sizeofT iNumberOfElements : Nat) (fresh : Option Nat)
    (pool : MemoryPoolFixedSize) (heap : Heap) : Option Nat × MemoryPoolFixedSize × List Call :=
  let sizeToAllocate := (iNumberOfElements * sizeofT) % 2 ^ 64
  allocateFrom blockSize sizeToAllocate (.elements sizeofT iNumberOfElements) fresh pool heap

def deallocate (blockSize sizeofT iPointer iNumberOfElements : Nat) (pool : MemoryPoolFixedSize)
    (heap : Heap) : MemoryPoolFixedSize × Heap × List Call :=
  deallocateTo blockSize (.elements sizeofT iNumberOfElements) iPointer pool heap

def operatorEq {ι δ : Type*} (_iAlloc1 _iAlloc2 : AllocatorMemoryPoolFixedSize ι δ) : Bool := true

end AllocatorMemoryPoolFixedSize

namespace MemoryResourceMemoryPoolFixedSize

def doAllocate (blockSize iBytes iAlignment : Nat) (fresh : Option Nat)
    (pool : MemoryPoolFixedSize) (heap : Heap) : Option Nat × MemoryPoolFixedSize × List Call :=
  allocateFrom blockSize iBytes (.bytes iBytes iAlignment) fresh pool heap

def doDeallocate (blockSize iPointer iBytes iAlignment : Nat) (pool : MemoryPoolFixedSize)
    (heap : Heap) : MemoryPoolFixedSize × Heap × List Call :=
  deallocateTo blockSize (.bytes iBytes iAlignment) iPointer pool heap

end MemoryResourceMemoryPoolFixedSize

namespace Request

def poolSize : Request → Nat
  | .elements sizeofT iNumberOfElements => (iNumberOfElements * sizeofT) % 2 ^ 64
  | .bytes iBytes _ => iBytes

def allocate (blockSize : Nat) (r : Request) (fresh : Option Nat) (pool : MemoryPoolFixedSize)
    (heap : Heap) : Option Nat × MemoryPoolFixedSize × List Call :=
  match r with
  | .elements sizeofT iNumberOfElements =>
    AllocatorMemoryPoolFixedSize.allocate blockSize sizeofT iNumberOfElements fresh pool heap
  | .bytes iBytes iAlignment =>
    MemoryResourceMemoryPoolFixedSize.doAllocate blockSize iBytes iAlignment fresh pool heap

def deallocate (blockSize : Nat) (r : Request) (iPointer : Nat) (pool : MemoryPoolFixedSize)
    (heap : Heap) : MemoryPoolFixedSize × Heap × List Call :=
  match r with
  | .elements sizeofT iNumberOfElements =>
    AllocatorMemoryPoolFixedSize.deallocate blockSize sizeofT iPointer iNumberOfElements pool heap
  | .bytes iBytes iAlignment =>
    MemoryResourceMemoryPoolFixedSize.doDeallocate blockSize iPointer iBytes iAlignment pool heap

lemma allocate_eq (blockSize : Nat) (r : Request) (fresh : Option Nat) (pool : MemoryPoolFixedSize)
    (heap : Heap) :
    r.allocate blockSize fresh pool heap = allocateFrom blockSize r.poolSize r fresh pool heap := by
  cases r <;> rfl

lemma deallocate_eq (blockSize : Nat) (r : Request) (iPointer : Nat) (pool : MemoryPoolFixedSize)
    (heap : Heap) :
    r.deallocate blockSize iPointer pool heap = deallocateTo blockSize r iPointer pool heap := by
  cases r <;> rfl

end Request

/-- A live allocation: on which pool and in front of which default allocator, for what,
where, and whether `TakeBlock` handed it out or the default allocator did. -/
structure Allocation (ι δ : Type*) where
  memoryPool : ι
  defaultAllocator : δ
  request : Request
  pointer : Nat
  fromPool : Bool
  deriving DecidableEq

/-- Several pools on one heap, the live allocations of their clients, and what each default
allocator handed out and did not get back. -/
structure World (ι δ : Type*) where
  pools : ι → MemoryPoolFixedSize
  heap : Heap
  live : List (Allocation ι δ)
  defaultLive : δ → List (Nat × Request)

def receiveCall (held : List (Nat × Request)) : Call → List (Nat × Request)
  | .defaultAllocate r (some p) => (p, r) :: held
  | .defaultDeallocate p r => held.erase (p, r)
  | _ => held

def Call.isDefault : Call → Bool
  | .defaultAllocate _ _ => true
  | .defaultDeallocate _ _ => true
  | _ => false

def InArena (blockSize : Nat) (pool : MemoryPoolFixedSize) (a : Nat) : Prop :=
  pool.memoryBlock.beginPtr ≤ a ∧ a < pool.memoryBlock.endPtr blockSize

namespace World

variable {ι δ : Type*} [DecidableEq ι] [DecidableEq δ]

def liveBlocks (w : World ι δ) (k : ι) : List Nat :=
  (w.live.filter (fun x => x.fromPool && decide (x.memoryPool = k))).map Allocation.pointer

/-- The default allocator `d` receives the calls that are made to it. -/
def receive (w : World ι δ) (d : δ) (calls : List Call) : δ → List (Nat × Request) :=
  Function.update w.defaultLive d (calls.foldl receiveCall (w.defaultLive d))

/-- An allocation on the pool `k` in front of the default allocator `d`. -/
def allocate (blockSize : Nat) (w : World ι δ) (k : ι) (d : δ) (r : Request)
    (fresh : Option Nat) : World ι δ :=
  let (result, pool, calls) := r.allocate blockSize fresh (w.pools k) w.heap
  { pools := Function.update w.pools k pool
    heap := w.heap
    live := match result with
      | some p => ⟨k, d, r, p, !calls.any Call.isDefault⟩ :: w.live
      | none => w.live
    defaultLive := w.receive d calls }

/-- The calls made when a live allocation is deallocated through the pool `k`. -/
def deallocateCalls (blockSize : Nat) (w : World ι δ) (k : ι) (x : Allocation ι δ) : List Call :=
  (x.request.deallocate blockSize x.pointer (w.pools k) w.heap).2.2

def deallocate (blockSize : Nat) (w : World ι δ) (k : ι) (d : δ) (x : Allocation ι δ) : World ι δ :=
  let (pool, heap, calls) := x.request.deallocate blockSize x.pointer (w.pools k) w.heap
  { pools := Function.update w.pools k pool
    heap := heap
    live := w.live.erase x
    defaultLive := w.receive d calls }

end World

inductive WorldEvent (ι δ : Type*)
  | reset (k : ι) (base n : Nat)
  | resetThrows (k : ι) (n : Nat)
  | allocate (k : ι) (d : δ) (r : Request) (fresh : Option Nat)
  | deallocate (k : ι) (d : δ) (x : Allocation ι δ)
  | write (a : Nat) (v : UInt8)

section Steps

variable {ι δ : Type*} [DecidableEq ι] [DecidableEq δ]

/-- The steps of a world. A pool is reset to any number of blocks while none of its blocks
is live, and the array `new` of the reset may throw. A new arena avoids the other arenas and
the live default allocations, default allocators answer with addresses outside the arenas,
and clients write outside the arenas or in blocks they hold. -/
inductive WorldStep (blockSize : Nat) : World ι δ → WorldEvent ι δ → World ι δ → Prop
  | reset {w : World ι δ} {pool' : MemoryPoolFixedSize} {heap' : Heap} (k : ι) (fuel base n : Nat)
      (harena : ValidArena blockSize base n) (hidle : w.liveBlocks k = [])
      (hapart : ∀ j, j ≠ k → ∀ a, base ≤ a → a < base + n * blockSize →
        ¬InArena blockSize (w.pools j) a)
      (hdefault : ∀ x ∈ w.live, x.fromPool = false →
        x.pointer < base ∨ base + n * blockSize ≤ x.pointer)
      (h : resetMemoryPool blockSize fuel (some base) n (w.pools k) w.heap =
        some (.returned, pool', heap')) :
    WorldStep blockSize w (.reset k base n)
      { w with pools := Function.update w.pools k pool', heap := heap' }
  | resetThrows {w : World ι δ} {pool' : MemoryPoolFixedSize} {heap' : Heap} (k : ι) (fuel n : Nat)
      (hidle : w.liveBlocks k = [])
      (hdefault : ∀ x ∈ w.live, x.fromPool = false → ¬InArena blockSize pool' x.pointer)
      (h : resetMemoryPool blockSize fuel none n (w.pools k) w.heap =
        some (.threw, pool', heap')) :
    WorldStep blockSize w (.resetThrows k n)
      { w with pools := Function.update w.pools k pool', heap := heap' }
  | allocate {w : World ι δ} (k : ι) (d : δ) (r : Request) (fresh : Option Nat)
      (hfresh : ∀ q, fresh = some q → q ≠ 0 ∧ ∀ j, ¬InArena blockSize (w.pools j) q) :
    WorldStep blockSize w (.allocate k d r fresh) (w.allocate blockSize k d r fresh)
  | deallocate {w : World ι δ} (k : ι) (d : δ) (x : Allocation ι δ) (hlive : x ∈ w.live) :
    WorldStep blockSize w (.deallocate k d x) (w.deallocate blockSize k d x)
  | write {w : World ι δ} (a : Nat) (v : UInt8)
      (hown : (∀ k, ¬InArena blockSize (w.pools k) a) ∨
        ∃ x ∈ w.live, x.fromPool = true ∧ x.pointer ≤ a ∧ a < x.pointer + blockSize) :
    WorldStep blockSize w (.write a v) { w with heap := w.heap.setByte a v }

def worldSystem (blockSize : Nat) (ι δ : Type*) [DecidableEq ι] [DecidableEq δ] :
    TransitionSystem (World ι δ) (WorldEvent ι δ) where
  init w := (∀ k, w.pools k = MemoryPoolFixedSize.init) ∧ w.live = [] ∧ ∀ d, w.defaultLive d = []
  step := WorldStep blockSize

def freshWorld {ι δ : Type*} : World ι δ :=
  ⟨fun _ => MemoryPoolFixedSize.init, ⟨fun _ => 0, [], [], []⟩, [], fun _ => []⟩

lemma freshWorld_init (blockSize : Nat) : (worldSystem blockSize ι δ).init freshWorld :=
  ⟨fun _ => rfl, rfl, fun _ => rfl⟩

lemma not_inArena_init {blockSize a : Nat} : ¬InArena blockSize MemoryPoolFixedSize.init a := by
  rintro ⟨-, hin⟩
  simp [MemoryPoolFixedSize.init, MemoryBlock.endPtr, ptrAdd] at hin

/-- The first reset of a pool: there are no other arenas and no allocations to avoid. -/
lemma WorldStep.reset_init {blockSize fuel base n : Nat} {w : World ι δ}
    {pool' : MemoryPoolFixedSize} {heap' : Heap} (hinit : (worldSystem blockSize ι δ).init w)
    (k : ι) (harena : ValidArena blockSize base n)
    (hreset : resetMemoryPool blockSize fuel (some base) n (w.pools k) w.heap =
      some (.returned, pool', heap')) :
    WorldStep blockSize w (.reset k base n)
      { w with pools := Function.update w.pools k pool', heap := heap' } := by
  apply WorldStep.reset k fuel base n harena _ _ _ hreset
  · simp [World.liveBlocks, hinit.2.1]
  · intro j _ a _ _
    rw [hinit.1 j]
    exact not_inArena_init
  · intro x hx
    simp [hinit.2.1] at hx

/-- A deallocation goes through the pool that handed out the block. A default allocation goes
through its default allocator, and does not start where the pool's arena ends. -/
def Routable (blockSize : Nat) (w : World ι δ) (k : ι) (d : δ) (x : Allocation ι δ) : Prop :=
  (x.fromPool = true → k = x.memoryPool) ∧
    (x.fromPool = false →
      d = x.defaultAllocator ∧ x.pointer ≠ (w.pools k).memoryBlock.endPtr blockSize)

/-- Resets are of at least one block and return, and deallocations are routable. -/
def RoutableStep (blockSize : Nat) (w : World ι δ) : WorldEvent ι δ → Prop
  | .reset _ _ n => 1 ≤ n
  | .resetThrows _ _ => False
  | .deallocate k d x => Routable blockSize w k d x
  | _ => True

def routableSystem (blockSize : Nat) (ι δ : Type*) [DecidableEq ι] [DecidableEq δ] :
    TransitionSystem (World ι δ) (WorldEvent ι δ) :=
  (worldSystem blockSize ι δ).restrict (RoutableStep blockSize)

end Steps

end CppBenchmark
