import CppBenchmark.Allocators.AllocationRouting
import CppBenchmark.Allocators.AllocationStatistics

/-!
# Pools over recording allocators

The default allocator of a pool's allocators may itself be one that records. It is then
told of the calls that the pool leaves to it, and of no others.
-/

namespace CppBenchmark

open MemoryPoolFixedSize TransitionSystem

/-- A recording default allocator receives the calls that are made to it. -/
def StatisticsState.receive (s : StatisticsState) : Call → StatisticsState
  | .takeBlock _ _ => s
  | .returnBlock _ _ => s
  | .defaultAllocate r fresh => (r.allocateRecorded fresh s).2
  | .defaultDeallocate p r => r.deallocateRecorded p s

/-- What a call to the default allocator that throws leaves in its records. -/
def Call.lost : Call → Nat
  | .defaultAllocate r none => r.recordedSize
  | _ => 0

/-- A world of pools, the records of its default allocator, and all calls so far. -/
structure RecordedWorld (ι : Type*) where
  world : World ι Unit
  statistics : StatisticsState
  calls : List Call

section System

variable {ι : Type*} [DecidableEq ι]

def WorldEvent.calls (blockSize : Nat) (w : World ι Unit) : WorldEvent ι Unit → List Call
  | .reset _ _ _ => []
  | .resetThrows _ _ => []
  | .allocate k _ r fresh => (r.allocate blockSize fresh (w.pools k) w.heap).2.2
  | .deallocate k _ x => w.deallocateCalls blockSize k x
  | .write _ _ => []

/-- The steps of a world whose default allocator records. Memory that is handed out fits
into the address space. -/
inductive RecordedStep (blockSize : Nat) :
    RecordedWorld ι → WorldEvent ι Unit → RecordedWorld ι → Prop
  | step {s : RecordedWorld ι} {w' : World ι Unit} (e : WorldEvent ι Unit)
      (hstep : WorldStep blockSize s.world e w')
      (hfits : ∀ r p, .defaultAllocate r (some p) ∈ e.calls blockSize s.world →
        r.byteSize < 2 ^ 64) :
    RecordedStep blockSize s e
      { world := w'
        statistics := (e.calls blockSize s.world).foldl StatisticsState.receive s.statistics
        calls := e.calls blockSize s.world ++ s.calls }

end System

namespace StatisticsState

variable {s : StatisticsState} {lost : Nat}

/-- The default allocator gives out what the calls ask for. -/
structure Answers (s : StatisticsState) (c : Call) : Prop where
  fits : ∀ r p, c = .defaultAllocate r (some p) → r.byteSize < 2 ^ 64
  held : ∀ p r, c = .defaultDeallocate p r → ⟨p, r⟩ ∈ s.live

lemma Answers.exceeds {c : Call} (hc : Answers s c) (h : Exceeds s lost) :
    Exceeds (s.receive c) (lost + c.lost) := by
  cases c with
  | takeBlock size p => exact h
  | returnBlock p accepted => exact h
  | defaultAllocate r fresh =>
    have hfits : fresh ≠ none → r.byteSize < 2 ^ 64 := by
      intro hfresh
      obtain ⟨p, rfl⟩ := Option.ne_none_iff_exists'.mp hfresh
      exact hc.fits r p rfl
    have hstep := StatisticsStep.exceeds (.allocate (s := s) r fresh hfits) h
    cases fresh with
    | none => exact hstep
    | some p => exact hstep
  | defaultDeallocate p r => exact StatisticsStep.exceeds (.deallocate p r (hc.held p r rfl)) h

/-- The default allocator holds the same memory whether it records or not. -/
lemma live_receive (s : StatisticsState) (c : Call) :
    (s.receive c).live.map (fun x => (x.pointer, x.request)) =
      receiveCall (s.live.map (fun x => (x.pointer, x.request))) c := by
  have hinj : Function.Injective (fun x : DefaultAllocation => (x.pointer, x.request)) := by
    rintro ⟨p, r⟩ ⟨q, t⟩ heq
    obtain ⟨rfl, rfl⟩ := Prod.mk.inj heq
    rfl
  cases c with
  | takeBlock size p => rfl
  | returnBlock p accepted => rfl
  | defaultAllocate r fresh =>
    rw [receive, Request.allocateRecorded_eq]
    cases fresh with
    | none => rfl
    | some p => rfl
  | defaultDeallocate p r =>
    rw [receive, Request.deallocateRecorded_eq]
    exact List.map_erase hinj _

end StatisticsState

section Calls

variable {calls : List Call} {s : StatisticsState}

lemma foldl_receive_filter (calls : List Call) (s : StatisticsState) :
    calls.foldl StatisticsState.receive s =
      (calls.filter Call.isDefault).foldl StatisticsState.receive s := by
  induction calls generalizing s with
  | nil => rfl
  | cons c calls ih =>
    cases c with
    | takeBlock size p => exact ih s
    | returnBlock p accepted => exact ih s
    | defaultAllocate r fresh => exact ih _
    | defaultDeallocate p r => exact ih _

lemma sum_lost_filter (calls : List Call) :
    (calls.map Call.lost).sum = ((calls.filter Call.isDefault).map Call.lost).sum := by
  induction calls with
  | nil => rfl
  | cons c calls ih =>
    cases c with
    | takeBlock size p => exact (Nat.zero_add _).trans ih
    | returnBlock p accepted => exact (Nat.zero_add _).trans ih
    | defaultAllocate r fresh => exact congrArg (Call.lost (.defaultAllocate r fresh) + ·) ih
    | defaultDeallocate p r => exact congrArg (Call.lost (.defaultDeallocate p r) + ·) ih

lemma live_foldl_receive (calls : List Call) (s : StatisticsState) :
    (calls.foldl StatisticsState.receive s).live.map (fun x => (x.pointer, x.request)) =
      calls.foldl receiveCall (s.live.map (fun x => (x.pointer, x.request))) := by
  induction calls generalizing s with
  | nil => rfl
  | cons c calls ih => rw [List.foldl_cons, ih, StatisticsState.live_receive, List.foldl_cons]

/-- Calls of which at most one is to the default allocator. -/
lemma exceeds_foldl {lost : Nat} (h : Exceeds s lost)
    (hone : (calls.filter Call.isDefault).length ≤ 1)
    (hanswers : ∀ c ∈ calls, s.Answers c) :
    Exceeds (calls.foldl StatisticsState.receive s) ((calls.map Call.lost).sum + lost) := by
  rw [foldl_receive_filter, sum_lost_filter]
  cases hcalls : calls.filter Call.isDefault with
  | nil =>
    rw [List.map_nil, List.sum_nil, Nat.zero_add]
    exact h
  | cons c rest =>
    have hc : c ∈ calls := (List.mem_filter.mp (hcalls ▸ List.mem_cons_self)).1
    rw [hcalls, List.length_cons] at hone
    obtain rfl : rest = [] := List.eq_nil_of_length_eq_zero (by omega)
    rw [List.map_singleton, List.sum_singleton, Nat.add_comm]
    exact (hanswers c hc).exceeds h

lemma length_default_calls {blockSize : Nat} {ι : Type*} {w : World ι Unit}
    (e : WorldEvent ι Unit) :
    ((e.calls blockSize w).filter Call.isDefault).length ≤ 1 := by
  cases e with
  | reset k base n => exact Nat.zero_le 1
  | resetThrows k n => exact Nat.zero_le 1
  | write a v => exact Nat.zero_le 1
  | allocate k d r fresh =>
    rw [WorldEvent.calls, Request.allocate_eq, allocateFrom]
    dsimp only
    split_ifs
    · exact Nat.zero_le 1
    · exact Nat.le_refl 1
  | deallocate k d x =>
    rw [WorldEvent.calls, World.deallocateCalls, Request.deallocate_eq, deallocateTo]
    split
    · exact Nat.zero_le 1
    · exact Nat.le_refl 1

end Calls

section Runs

variable {blockSize : Nat} {ι : Type*} [DecidableEq ι] {w w' : World ι Unit} {k : ι}
  {stackOf : ι → BlockStack Nat} {s s' : RecordedWorld ι} {e : WorldEvent ι Unit}

lemma defaultLive_step (h : WorldStep blockSize w e w') :
    w'.defaultLive () = (e.calls blockSize w).foldl receiveCall (w.defaultLive ()) := by
  cases h with
  | reset k fuel base n harena hidle hapart hdefault hreset => rfl
  | resetThrows k fuel n hidle hdefault hreset => rfl
  | allocate k d r fresh hfresh => rfl
  | deallocate k d x hlive => rfl
  | write a v hown => rfl

/-- Only a live default allocation is given back to the default allocator. -/
lemma WorldRefines.held (h : WorldRefines blockSize w stackOf) (hstep : WorldStep blockSize w e w')
    (hgood : RoutableStep blockSize w e) {p : Nat} {r : Request}
    (hcall : .defaultDeallocate p r ∈ e.calls blockSize w) : (p, r) ∈ w.defaultLive () := by
  cases hstep with
  | reset k fuel base n harena hidle hapart hdefault hreset => exact absurd hcall List.not_mem_nil
  | resetThrows k fuel n hidle hdefault hreset => exact hgood.elim
  | write a v hown => exact absurd hcall List.not_mem_nil
  | allocate k d r' fresh hfresh =>
    rw [WorldEvent.calls, Request.allocate_eq, allocateFrom] at hcall
    dsimp only at hcall
    split_ifs at hcall
    · cases List.mem_singleton.mp hcall
    · rcases List.mem_pair.mp hcall with hcall | hcall
      · cases hcall
      · cases hcall
  | deallocate k d x hx =>
    rw [WorldEvent.calls, World.deallocateCalls, Request.deallocate_eq] at hcall
    cases hpool : x.fromPool with
    | true =>
      obtain rfl : k = x.memoryPool := hgood.1 hpool
      rw [(h.represents x.memoryPool).deallocateTo_of_mem (h.block_mem hx hpool)] at hcall
      cases List.mem_singleton.mp hcall
    | false =>
      rw [Represents.deallocateTo_refused ((h.default_out x hx hpool).2 k)
        (hgood.2 hpool).2] at hcall
      rcases List.mem_pair.mp hcall with hcall | hcall
      · cases hcall
      · obtain ⟨rfl, rfl⟩ := Call.defaultDeallocate.inj hcall
        exact h.mem_defaultLive hx hpool

/-- The records follow the calls, and the recorded memory is that of the world. -/
structure Recorded (blockSize : Nat) (s : RecordedWorld ι) : Prop where
  refines : ∃ stackOf, WorldRefines blockSize s.world stackOf
  live_eq : s.statistics.live.map (fun x => (x.pointer, x.request)) = s.world.defaultLive ()
  exceeds : Exceeds s.statistics (s.calls.map Call.lost).sum

lemma Recorded.step (h : Recorded blockSize s) (hb : sizeofNode ≤ blockSize)
    (hstep : RecordedStep blockSize s e s') (hgood : RoutableStep blockSize s.world e) :
    Recorded blockSize s' := by
  cases hstep with
  | step e hstep hfits =>
    obtain ⟨stackOf, href⟩ := h.refines
    refine ⟨href.step hb hstep hgood, ?_, ?_⟩
    · rw [defaultLive_step hstep, ← h.live_eq]
      exact live_foldl_receive _ _
    · rw [List.map_append, List.sum_append]
      apply exceeds_foldl h.exceeds (length_default_calls e)
      intro c hc
      refine ⟨fun r p hcall => hfits r p (hcall ▸ hc), fun p r hcall => ?_⟩
      have hheld := href.held hstep hgood (hcall ▸ hc)
      rw [← h.live_eq] at hheld
      obtain ⟨⟨q, t⟩, hlive, heq⟩ := List.mem_map.mp hheld
      obtain ⟨rfl, rfl⟩ := Prod.mk.inj heq
      exact hlive

end Runs

end CppBenchmark
