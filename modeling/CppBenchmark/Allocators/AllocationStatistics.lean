import CppBenchmark.Allocators.PoolAllocator

/-!
# Allocation statistics

`AllocatorStatistics` and `MemoryResourceStatistics` tell a handler the size of every
allocation and deallocation and pass the call on. The size is recorded before the
underlying allocator is asked, so a call that throws stays recorded.
-/

namespace CppBenchmark

open TransitionSystem

/-- Memory that the underlying allocator has handed out for a request. -/
structure DefaultAllocation where
  pointer : Nat
  request : Request
  deriving DecidableEq

/-- What the handler was told, and the memory that the underlying allocator has handed out. -/
structure StatisticsState where
  allocatedSizes : List Nat
  deallocatedSizes : List Nat
  live : List DefaultAllocation

namespace StatisticsState

def init : StatisticsState := ⟨[], [], []⟩

def recordAllocate (size : Nat) (s : StatisticsState) : StatisticsState :=
  { s with allocatedSizes := size :: s.allocatedSizes }

def recordDeallocate (size : Nat) (s : StatisticsState) : StatisticsState :=
  { s with deallocatedSizes := size :: s.deallocatedSizes }

/-- The underlying allocator's `allocate`: `fresh` is its answer, `none` when it throws. -/
def defaultAllocate (r : Request) (fresh : Option Nat) (s : StatisticsState) :
    Option Nat × StatisticsState :=
  match fresh with
  | some p => (some p, { s with live := ⟨p, r⟩ :: s.live })
  | none => (none, s)

def defaultDeallocate (p : Nat) (r : Request) (s : StatisticsState) : StatisticsState :=
  { s with live := s.live.erase ⟨p, r⟩ }

end StatisticsState

open StatisticsState

namespace AllocatorStatistics

def allocate (sizeofT iNumberOfElements : Nat) (fresh : Option Nat) (s : StatisticsState) :
    Option Nat × StatisticsState :=
  let s := s.recordAllocate ((iNumberOfElements * sizeofT) % 2 ^ 64)
  s.defaultAllocate (.elements sizeofT iNumberOfElements) fresh

def deallocate (sizeofT iPointer iNumberOfElements : Nat) (s : StatisticsState) :
    StatisticsState :=
  let s := s.recordDeallocate ((iNumberOfElements * sizeofT) % 2 ^ 64)
  s.defaultDeallocate iPointer (.elements sizeofT iNumberOfElements)

end AllocatorStatistics

namespace MemoryResourceStatistics

def doAllocate (iBytes iAlignment : Nat) (fresh : Option Nat) (s : StatisticsState) :
    Option Nat × StatisticsState :=
  let s := s.recordAllocate iBytes
  s.defaultAllocate (.bytes iBytes iAlignment) fresh

def doDeallocate (iPointer iBytes iAlignment : Nat) (s : StatisticsState) : StatisticsState :=
  let s := s.recordDeallocate iBytes
  s.defaultDeallocate iPointer (.bytes iBytes iAlignment)

end MemoryResourceStatistics

namespace Request

/-- The bytes that a request asks for. -/
def byteSize : Request → Nat
  | .elements sizeofT iNumberOfElements => iNumberOfElements * sizeofT
  | .bytes iBytes _ => iBytes

/-- The size that the handler is told, an element count times a size in `std::size_t`. -/
def recordedSize : Request → Nat
  | .elements sizeofT iNumberOfElements => (iNumberOfElements * sizeofT) % 2 ^ 64
  | .bytes iBytes _ => iBytes

def allocateRecorded (r : Request) (fresh : Option Nat) (s : StatisticsState) :
    Option Nat × StatisticsState :=
  match r with
  | .elements sizeofT iNumberOfElements =>
    AllocatorStatistics.allocate sizeofT iNumberOfElements fresh s
  | .bytes iBytes iAlignment => MemoryResourceStatistics.doAllocate iBytes iAlignment fresh s

def deallocateRecorded (r : Request) (p : Nat) (s : StatisticsState) : StatisticsState :=
  match r with
  | .elements sizeofT iNumberOfElements =>
    AllocatorStatistics.deallocate sizeofT p iNumberOfElements s
  | .bytes iBytes iAlignment => MemoryResourceStatistics.doDeallocate p iBytes iAlignment s

lemma allocateRecorded_eq (r : Request) (fresh : Option Nat) (s : StatisticsState) :
    r.allocateRecorded fresh s = (s.recordAllocate r.recordedSize).defaultAllocate r fresh := by
  cases r <;> rfl

lemma deallocateRecorded_eq (r : Request) (p : Nat) (s : StatisticsState) :
    r.deallocateRecorded p s = (s.recordDeallocate r.recordedSize).defaultDeallocate p r := by
  cases r <;> rfl

lemma recordedSize_of_lt {r : Request} (h : r.byteSize < 2 ^ 64) : r.recordedSize = r.byteSize := by
  cases r with
  | elements sizeofT n => exact Nat.mod_eq_of_lt h
  | bytes n alignment => rfl

end Request

inductive StatisticsEvent
  | allocate (r : Request) (fresh : Option Nat)
  | deallocate (p : Nat) (r : Request)

/-- The steps of any number of allocators and resources with one handler. Memory that is
handed out fits into the address space, and what is deallocated was handed out for the
same request and not given back since. -/
inductive StatisticsStep : StatisticsState → StatisticsEvent → StatisticsState → Prop
  | allocate {s : StatisticsState} (r : Request) (fresh : Option Nat)
      (hfits : fresh ≠ none → r.byteSize < 2 ^ 64) :
    StatisticsStep s (.allocate r fresh) (r.allocateRecorded fresh s).2
  | deallocate {s : StatisticsState} (p : Nat) (r : Request) (hlive : ⟨p, r⟩ ∈ s.live) :
    StatisticsStep s (.deallocate p r) (r.deallocateRecorded p s)

def statisticsSystem : TransitionSystem StatisticsState StatisticsEvent where
  init s := s = StatisticsState.init
  step := StatisticsStep

namespace StatisticsState

/-- The bytes allocated from the underlying allocator and not yet deallocated. -/
def liveBytes (s : StatisticsState) : Nat := (s.live.map (fun x => x.request.byteSize)).sum

/-- The recorded total is the number of bytes that are allocated. -/
def Balances (s : StatisticsState) : Prop :=
  (s.allocatedSizes.sum : Int) - s.deallocatedSizes.sum = s.liveBytes

end StatisticsState

/-- What a call that threw leaves in the records. -/
def StatisticsEvent.lost : StatisticsEvent → Nat
  | .allocate r none => r.recordedSize
  | _ => 0

section Balance

variable {s s' : StatisticsState} {e : StatisticsEvent} {es : List StatisticsEvent}

/-- The records exceed the bytes that are allocated by `lost`. -/
structure Exceeds (s : StatisticsState) (lost : Nat) : Prop where
  fits : ∀ x ∈ s.live, x.request.byteSize < 2 ^ 64
  total : s.allocatedSizes.sum = s.deallocatedSizes.sum + s.liveBytes + lost

lemma Exceeds.balanced_iff {lost : Nat} (h : Exceeds s lost) : Balances s ↔ lost = 0 := by
  have htotal := h.total
  unfold Balances
  omega

lemma liveBytes_erase {x : DefaultAllocation} (hx : x ∈ s.live) :
    x.request.byteSize + ((s.live.erase x).map (fun y => y.request.byteSize)).sum = s.liveBytes :=
  List.sum_map_erase (fun y : DefaultAllocation => y.request.byteSize) hx

/-- A step adds to the excess what it loses. -/
lemma StatisticsStep.exceeds (hstep : StatisticsStep s e s') {lost : Nat} (h : Exceeds s lost) :
    Exceeds s' (lost + e.lost) := by
  have htotal := h.total
  cases hstep with
  | allocate r fresh hfits =>
    rw [Request.allocateRecorded_eq]
    cases fresh with
    | none =>
      refine ⟨h.fits, ?_⟩
      simp only [defaultAllocate, recordAllocate, List.sum_cons, liveBytes, StatisticsEvent.lost]
      rw [liveBytes] at htotal
      omega
    | some p =>
      have hsize := hfits (Option.some_ne_none p)
      refine ⟨?_, ?_⟩
      · intro x hx
        rcases List.mem_cons.mp hx with rfl | hx
        · exact hsize
        · exact h.fits x hx
      · simp only [defaultAllocate, recordAllocate, List.sum_cons, liveBytes, List.map_cons,
          StatisticsEvent.lost, Request.recordedSize_of_lt hsize]
        rw [liveBytes] at htotal
        omega
  | deallocate p r hlive =>
    rw [Request.deallocateRecorded_eq]
    have herase : r.byteSize + _ = s.liveBytes := liveBytes_erase hlive
    refine ⟨fun x hx => h.fits x (List.mem_of_mem_erase hx), ?_⟩
    simp only [defaultDeallocate, recordDeallocate, List.sum_cons, liveBytes, StatisticsEvent.lost,
      Request.recordedSize_of_lt (h.fits _ hlive)]
    omega

/-- Along a run the excess is what the calls that threw have left. -/
lemma statisticsSystem_exceeds (hrun : statisticsSystem.Run es s) :
    Exceeds s (es.map StatisticsEvent.lost).sum := by
  induction hrun with
  | init h =>
    rw [h]
    exact ⟨fun x hx => absurd hx List.not_mem_nil, rfl⟩
  | step _ hstep ih =>
    rw [List.map_cons, List.sum_cons, Nat.add_comm]
    exact StatisticsStep.exceeds hstep ih

/-- In the state that a run reaches the records balance exactly when no call of the run
that threw was for a size other than zero. -/
theorem statistics_balance_iff (hrun : statisticsSystem.Run es s) :
    Balances s ↔ ∀ r, .allocate r none ∈ es → r.recordedSize = 0 := by
  rw [(statisticsSystem_exceeds hrun).balanced_iff, List.sum_eq_zero_iff, List.forall_mem_map]
  constructor
  · intro hlost r hr
    exact hlost _ hr
  · intro hzero e he
    cases e with
    | allocate r fresh =>
      cases fresh with
      | none => exact hzero r he
      | some p => rfl
    | deallocate p r => rfl

/-- Three elements of four bytes are allocated, and no elements by a call that throws. -/
theorem statistics_balance_twelve : ∃ s, statisticsSystem.Run
    [.allocate (.elements 4 0) none, .allocate (.elements 4 3) (some 4096)] s ∧ Balances s := by
  have hrun : statisticsSystem.Run
      [.allocate (.elements 4 0) none, .allocate (.elements 4 3) (some 4096)] _ :=
    .step (.step (.init rfl) (.allocate (.elements 4 3) (some 4096) (fun _ => by decide)))
      (.allocate (.elements 4 0) none (fun h => absurd rfl h))
  refine ⟨_, hrun, (statistics_balance_iff hrun).mpr ?_⟩
  intro r hr
  rcases List.mem_cons.mp hr with hr | hr
  · obtain ⟨rfl, -⟩ := StatisticsEvent.allocate.inj hr
    rfl
  · obtain ⟨-, hfresh⟩ := StatisticsEvent.allocate.inj (List.mem_singleton.mp hr)
    cases hfresh

end Balance

/-- A call for four bytes throws, and stays recorded. -/
theorem thrown_allocation_recorded :
    ¬∀ es s, statisticsSystem.Run es s → Balances s := by
  intro hall
  have hbalanced := hall _ _ (.step (.init rfl)
    (.allocate (.elements 4 1) none (fun h => absurd rfl h)))
  revert hbalanced
  unfold Balances
  decide

end CppBenchmark
