import CppBenchmark.Foundation.Transition
import Mathlib.Data.List.Infix
import Mathlib.Data.List.Perm.Basic
import Mathlib.Tactic

/-!
# The purpose of a fixed-size pool: a stack of blocks

A `BlockStack` hands out blocks last in, first out: blocks given back come first, most
recent first, then the blocks never handed out since the reset, in block order. The
client's side is a `Ledger`: the blocks it holds and the blocks it gave back.
-/

namespace CppBenchmark

variable {α : Type*}

/-- A pool of blocks. `fresh` are the blocks not handed out since the reset and
`returned` the free blocks that were handed out and given back. -/
structure BlockStack (α : Type*) where
  blocks : List α
  returned : List α
  fresh : List α
  nodup_blocks : blocks.Nodup
  fresh_suffix : fresh <:+ blocks
  nodup_returned : returned.Nodup
  returned_taken : ∀ x ∈ returned, x ∈ blocks ∧ x ∉ fresh

namespace BlockStack

/-- The free blocks in the order in which they are handed out. -/
def free (s : BlockStack α) : List α := s.returned ++ s.fresh

lemma nodup_free (s : BlockStack α) : s.free.Nodup :=
  List.nodup_append.mpr ⟨s.nodup_returned, s.nodup_blocks.sublist s.fresh_suffix.sublist,
    fun _ hx _ hy h => (s.returned_taken _ hx).2 (h ▸ hy)⟩

lemma free_subset (s : BlockStack α) : ∀ x ∈ s.free, x ∈ s.blocks := by
  intro x hx
  rcases List.mem_append.mp hx with h | h
  · exact (s.returned_taken x h).1
  · exact s.fresh_suffix.subset h

def reset (bs : List α) (h : bs.Nodup) : BlockStack α where
  blocks := bs
  returned := []
  fresh := bs
  nodup_blocks := h
  fresh_suffix := List.suffix_rfl
  nodup_returned := List.nodup_nil
  returned_taken := by simp

@[simp] lemma free_reset (bs : List α) (h : bs.Nodup) : (reset bs h).free = bs := rfl

@[simp] lemma blocks_reset (bs : List α) (h : bs.Nodup) : (reset bs h).blocks = bs := rfl

@[simp] lemma returned_reset (bs : List α) (h : bs.Nodup) : (reset bs h).returned = [] := rfl

def top (s : BlockStack α) : Option α := s.free.head?

def pop (s : BlockStack α) : BlockStack α where
  blocks := s.blocks
  returned := s.returned.tail
  fresh := if s.returned.isEmpty then s.fresh.tail else s.fresh
  nodup_blocks := s.nodup_blocks
  fresh_suffix := by
    split
    · exact (List.tail_suffix _).trans s.fresh_suffix
    · exact s.fresh_suffix
  nodup_returned := s.nodup_returned.sublist (List.tail_sublist _)
  returned_taken := by
    intro x hx
    have h := s.returned_taken x (List.mem_of_mem_tail hx)
    refine ⟨h.1, ?_⟩
    split
    · exact fun hx' => h.2 (List.mem_of_mem_tail hx')
    · exact h.2

@[simp] lemma blocks_pop (s : BlockStack α) : s.pop.blocks = s.blocks := rfl

@[simp] lemma free_pop (s : BlockStack α) : s.pop.free = s.free.tail := by
  cases h : s.returned <;> simp [free, pop, h]

def push (s : BlockStack α) (x : α) (hx : x ∈ s.blocks) (hfree : x ∉ s.free) : BlockStack α where
  blocks := s.blocks
  returned := x :: s.returned
  fresh := s.fresh
  nodup_blocks := s.nodup_blocks
  fresh_suffix := s.fresh_suffix
  nodup_returned := List.nodup_cons.mpr ⟨fun h => hfree (List.mem_append_left _ h), s.nodup_returned⟩
  returned_taken := by
    intro y hy
    rcases List.mem_cons.mp hy with rfl | hy
    · exact ⟨hx, fun h => hfree (List.mem_append_right _ h)⟩
    · exact s.returned_taken y hy

@[simp] lemma blocks_push (s : BlockStack α) (x : α) (hx hfree) :
    (s.push x hx hfree).blocks = s.blocks := rfl

@[simp] lemma free_push (s : BlockStack α) (x : α) (hx hfree) :
    (s.push x hx hfree).free = x :: s.free := rfl

@[simp] lemma returned_push (s : BlockStack α) (x : α) (hx hfree) :
    (s.push x hx hfree).returned = x :: s.returned := rfl

lemma top_eq_some {s : BlockStack α} {x : α} (h : s.top = some x) : s.free = x :: s.free.tail :=
  List.eq_cons_of_mem_head? h

end BlockStack

/-- What a client knows of a pool: the blocks it holds, and the blocks it gave back
since the last reset, most recent first. -/
structure Ledger (α : Type*) where
  live : List α
  returned : List α

namespace Ledger

variable [DecidableEq α]

def reset : Ledger α := ⟨[], []⟩

def take (l : Ledger α) (x : α) : Ledger α := { l with live := x :: l.live }

def giveBack (l : Ledger α) (x : α) : Ledger α := ⟨l.live.erase x, x :: l.returned⟩

end Ledger

section Follows

variable [DecidableEq α]

/-- The stack of a pool whose client holds the ledger `l`: the free and the live blocks
partition the pool, and the returned free blocks appear by how recently they were given
back, whatever other test `P` they are searched with. -/
structure Follows (s : BlockStack α) (l : Ledger α) : Prop where
  partition : (s.free ++ l.live).Perm s.blocks
  recency : ∀ P : α → Bool,
    l.returned.find? (fun x => decide (x ∈ s.free) && P x) = s.returned.find? P

namespace Follows

variable {s : BlockStack α} {l : Ledger α}

lemma reset (bs : List α) (h : bs.Nodup) : Follows (BlockStack.reset bs h) Ledger.reset where
  partition := by simp [Ledger.reset]
  recency := by simp [Ledger.reset]

lemma nodup (h : Follows s l) : (s.free ++ l.live).Nodup :=
  h.partition.nodup_iff.mpr s.nodup_blocks

lemma mem_blocks (h : Follows s l) {x : α} (hx : x ∈ l.live) : x ∈ s.blocks :=
  h.partition.mem_iff.mp (List.mem_append_right _ hx)

lemma not_free (h : Follows s l) {x : α} (hx : x ∈ l.live) : x ∉ s.free :=
  fun hf => (List.nodup_append.mp h.nodup).2.2 x hf x hx rfl

lemma take (h : Follows s l) {x : α} (htop : s.top = some x) : Follows s.pop (l.take x) where
  partition := by
    have hp := h.partition
    rw [BlockStack.top_eq_some htop] at hp
    rw [BlockStack.free_pop, BlockStack.blocks_pop]
    exact List.perm_middle.trans hp
  recency := by
    -- Popping adds the test `y ≠ x` to the search, which is why `P` is arbitrary.
    intro P
    have hfree := BlockStack.top_eq_some htop
    have hnodup : x ∉ s.free.tail := by
      have := s.nodup_free
      rw [hfree] at this
      exact (List.nodup_cons.mp this).1
    have hmem : ∀ y, decide (y ∈ s.pop.free) = (decide (y ∈ s.free) && decide (y ≠ x)) := by
      intro y
      rw [BlockStack.free_pop, hfree, List.tail_cons]
      by_cases hy : y = x
      · simp [hy, hnodup]
      · simp [hy]
    have hfind := h.recency (fun y => decide (y ≠ x) && P y)
    simp only [Ledger.take, hmem, Bool.and_assoc, hfind]
    cases hr : s.returned with
    | nil => simp [BlockStack.pop, hr]
    | cons y ys =>
      obtain rfl : y = x := by
        rw [BlockStack.top, BlockStack.free, hr] at htop
        simpa using htop
      have hys : ∀ z ∈ ys, z ≠ y := by
        have := s.nodup_returned
        rw [hr] at this
        rintro z hz rfl
        exact (List.nodup_cons.mp this).1 hz
      rw [List.find?_cons_of_neg (by simp)]
      simp only [BlockStack.pop, hr, List.tail_cons]
      exact List.find?_congr (fun z hz => by simp [hys z hz])

lemma giveBack (h : Follows s l) {x : α} (hlive : x ∈ l.live) (hx hfree) :
    Follows (s.push x hx hfree) (l.giveBack x) where
  partition := by
    have hp : (x :: l.live.erase x).Perm l.live := (List.perm_cons_erase hlive).symm
    rw [BlockStack.free_push, BlockStack.blocks_push, Ledger.giveBack, List.cons_append]
    exact (List.perm_middle.symm.trans (hp.append_left s.free)).trans h.partition
  recency := by
    intro P
    simp only [Ledger.giveBack, BlockStack.free_push, BlockStack.returned_push]
    by_cases hP : P x = true
    · rw [List.find?_cons_of_pos (by simp [hP]), List.find?_cons_of_pos hP]
    · rw [List.find?_cons_of_neg (by simp [hP]), List.find?_cons_of_neg hP, ← h.recency P]
      apply List.find?_congr
      intro y _
      by_cases hy : y = x
      · simp [hy, hP]
      · simp [hy]

/-- Last in, first out: the top is the free block given back most recently, and with no
such block the first free block in block order. -/
theorem top_eq (h : Follows s l) :
    s.top = (l.returned.find? (fun x => decide (x ∈ s.free))).or (s.blocks.find? (· ∈ s.free)) := by
  have hfind := h.recency (fun _ => true)
  simp only [Bool.and_true] at hfind
  rw [hfind, BlockStack.top, BlockStack.free]
  cases hr : s.returned with
  | cons y ys => simp
  | nil =>
    obtain ⟨pre, hpre⟩ := s.fresh_suffix
    have hnodup := s.nodup_blocks
    rw [← hpre] at hnodup ⊢
    have hdisj := (List.nodup_append.mp hnodup).2.2
    have hnone : pre.find? (fun x => decide (x ∈ [] ++ s.fresh)) = none :=
      List.find?_eq_none.mpr (fun x hx hf => hdisj x hx x (by simpa using hf) rfl)
    rw [List.find?_append, hnone]
    cases s.fresh <;> simp

end Follows

end Follows

/-- What an observer of a pool sees: resets with their blocks, requests with their
answers, returned blocks, and writes of the client to memory. -/
inductive StackEvent (α : Type*)
  | reset (blocks : List α)
  | take (size : Nat) (result : Option α)
  | giveBack (x : α)
  | write (a : Nat) (v : UInt8)

inductive StackStep [DecidableEq α] (capacity : Nat) :
    BlockStack α × Ledger α → StackEvent α → BlockStack α × Ledger α → Prop
  | reset {s : BlockStack α} {l : Ledger α} (bs : List α) (h : bs.Nodup) :
    StackStep capacity (s, l) (.reset bs) (BlockStack.reset bs h, Ledger.reset)
  | takeSome {s : BlockStack α} {l : Ledger α} (size : Nat) (x : α) (hsize : size ≤ capacity)
      (htop : s.top = some x) :
    StackStep capacity (s, l) (.take size (some x)) (s.pop, l.take x)
  | takeNone {s : BlockStack α} {l : Ledger α} (size : Nat)
      (hnone : capacity < size ∨ s.top = none) :
    StackStep capacity (s, l) (.take size none) (s, l)
  | giveBack {s : BlockStack α} {l : Ledger α} (x : α) (hlive : x ∈ l.live) (hx hfree) :
    StackStep capacity (s, l) (.giveBack x) (s.push x hx hfree, l.giveBack x)
  | write {s : BlockStack α} {l : Ledger α} (a : Nat) (v : UInt8) :
    StackStep capacity (s, l) (.write a v) (s, l)

/-- The blocks of the latest reset, for events with the latest one first. -/
def resetBlocks : List (StackEvent α) → List α
  | [] => []
  | .reset bs :: _ => bs
  | _ :: es => resetBlocks es

def stackSystem [DecidableEq α] (capacity : Nat) :
    TransitionSystem (BlockStack α × Ledger α) (StackEvent α) where
  init s := s = (BlockStack.reset [] List.nodup_nil, Ledger.reset)
  step := StackStep capacity

/-- The blocks of the stack are those of the latest reset. -/
lemma stackSystem_blocks [DecidableEq α] {capacity : Nat} {es : List (StackEvent α)}
    {p : BlockStack α × Ledger α} (h : (stackSystem capacity).Run es p) :
    p.1.blocks = resetBlocks es := by
  induction h with
  | init h =>
    obtain rfl := h
    rfl
  | step _ hstep ih =>
    cases hstep with
    | reset bs h => rfl
    | takeSome size x hsize htop => exact ih
    | takeNone size hnone => exact ih
    | giveBack x hlive hx hfree => exact ih
    | write a v => exact ih

/-- Along every run the stack follows the client's ledger. -/
theorem stackSystem_follows [DecidableEq α] {capacity : Nat} {es : List (StackEvent α)}
    {p : BlockStack α × Ledger α} (h : (stackSystem capacity).Run es p) : Follows p.1 p.2 := by
  apply h.invariant (P := fun p => Follows p.1 p.2)
  · rintro _ rfl
    exact Follows.reset [] List.nodup_nil
  · intro p e p' hp hstep
    cases hstep with
    | reset bs h => exact Follows.reset bs h
    | takeSome _ x _ htop => exact hp.take htop
    | takeNone => exact hp
    | giveBack x hlive hx hfree => exact hp.giveBack hlive hx hfree
    | write => exact hp

end CppBenchmark
