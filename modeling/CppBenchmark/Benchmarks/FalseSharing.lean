import CppBenchmark.Foundation.Rounds
import CppBenchmark.Foundation.Transition
import Mathlib.Algebra.BigOperators.Group.Finset.Piecewise
import Mathlib.Algebra.Order.BigOperators.Group.Finset
import Mathlib.Data.Fintype.BigOperators

/-!
# The false sharing benchmark

Four threads increment the atomics they are given, which may be the same, while the main
thread joins one after the other. The steps of the threads are interleaved in any order.
-/

namespace CppBenchmark

open Rounds TransitionSystem

namespace FalseSharing

/-- What the main thread does in the loop over the state of the benchmark. -/
inductive Statement
  | create (t : Fin 4)
  | join (t : Fin 4)
  | reset (t : Fin 4)
  deriving DecidableEq

def body : List Statement :=
  [.create 0, .create 1, .create 2, .create 3, .join 0, .join 1, .join 2, .join 3,
    .reset 0, .reset 1, .reset 2, .reset 3]

/-- The next statement of the main thread and the loops it has completed, the counters of
the running threads, and the atomics. -/
structure State (α : Type*) where
  pc : Nat
  rounds : Nat
  threads : Fin 4 → Option Nat
  atomics : α → BitVec 64

inductive Event
  | main
  | increment (t : Fin 4)

section Model

variable {α : Type*} [DecidableEq α] (iAtomic : Fin 4 → α) (numberIterations : Nat)

def Statement.execute (s : State α) : Statement → Option (State α)
  | .create t => some { s with threads := Function.update s.threads t (some 0) }
  | .join t =>
    if s.threads t = some numberIterations then
      some { s with threads := Function.update s.threads t none }
    else none
  | .reset t => some { s with atomics := Function.update s.atomics (iAtomic t) 0 }

def State.advance (s : State α) : State α :=
  { s with
    pc := next body.length s.pc
    rounds := if body.length = s.pc + 1 then s.rounds + 1 else s.rounds }

def step (s : State α) : Event → Option (State α)
  | .main => body[s.pc]?.bind fun statement =>
    (statement.execute iAtomic numberIterations s).map State.advance
  | .increment t => (s.threads t).bind fun i =>
    if i < numberIterations then
      some { s with
        threads := Function.update s.threads t (some (i + 1))
        atomics := Function.update s.atomics (iAtomic t) (s.atomics (iAtomic t) + 1) }
    else none

/-- `RunBenchmark` from atomics that are zero. -/
def falseSharing : TransitionSystem (State α) Event where
  init s := s = ⟨0, 0, fun _ => none, fun _ => 0⟩
  step s e s' := step iAtomic numberIterations s e = some s'

end Model

section Advance

variable {α : Type*} {s : State α}

lemma advance_of_lt (hpc : s.pc < 11) : s.advance = { s with pc := s.pc + 1 } := by
  have hne : ¬body.length = s.pc + 1 := by
    change ¬12 = s.pc + 1
    omega
  rw [State.advance, next, if_neg hne, if_neg hne]

lemma advance_of_last (hpc : s.pc = 11) : s.advance = { s with pc := 0, rounds := s.rounds + 1 } := by
  have heq : body.length = s.pc + 1 := by
    rw [hpc]
    rfl
  rw [State.advance, next, if_pos heq, if_pos heq]

end Advance

section Invariant

variable {α : Type*} [DecidableEq α] {iAtomic : Fin 4 → α} {numberIterations : Nat}

lemma getElem?_body : ∀ pc < body.length, ∀ t : Fin 4,
    (body[pc]? = some (.create t) ↔ pc = t.val) ∧
      (body[pc]? = some (.join t) ↔ pc = 4 + t.val) ∧
      (body[pc]? = some (.reset t) ↔ pc = 8 + t.val) := by
  decide

/-- The increments that a thread has made in this round: all of them once it is joined. -/
def increments (numberIterations pc : Nat) (threads : Fin 4 → Option Nat) (t : Fin 4) : Nat :=
  (threads t).getD (if 4 + t.val < pc then numberIterations else 0)

def State.increments (numberIterations : Nat) (s : State α) : Fin 4 → Nat :=
  FalseSharing.increments numberIterations s.pc s.threads

def State.total (iAtomic : Fin 4 → α) (numberIterations : Nat) (s : State α) (a : α) : Nat :=
  ∑ t with iAtomic t = a, s.increments numberIterations t

structure Invariant (iAtomic : Fin 4 → α) (numberIterations : Nat) (es : List Event)
    (s : State α) : Prop where
  pc_lt : s.pc < body.length
  running_iff : ∀ t, (s.threads t).isSome ↔ t.val < s.pc ∧ s.pc ≤ 4 + t.val
  counter_le : ∀ t i, s.threads t = some i → i ≤ numberIterations
  atomics_eq : ∀ a, s.atomics a = if ∃ t, iAtomic t = a ∧ 8 + t.val < s.pc then 0
    else BitVec.ofNat 64 (s.total iAtomic numberIterations a)
  length_eq : es.length = s.rounds * (4 * numberIterations + body.length) + s.pc +
    ∑ t, s.increments numberIterations t

variable {es : List Event} {s : State α}

lemma sum_update_succ (f : Fin 4 → Nat) (t : Fin 4) (ts : Finset (Fin 4)) :
    ∑ k ∈ ts, Function.update f t (f t + 1) k = (∑ k ∈ ts, f k) + if t ∈ ts then 1 else 0 := by
  have hupdate : ∀ k, Function.update f t (f t + 1) k = f k + if k = t then 1 else 0 := by
    intro k
    by_cases hk : k = t
    · rw [hk, Function.update_self, if_pos rfl]
    · rw [Function.update_of_ne hk, if_neg hk, Nat.add_zero]
  simp only [hupdate, Finset.sum_add_distrib, Finset.sum_ite_eq']

lemma Invariant.not_reset (h : Invariant iAtomic numberIterations es s) (hpc : s.pc ≤ 8) (a : α) :
    s.atomics a = BitVec.ofNat 64 (s.total iAtomic numberIterations a) := by
  rw [h.atomics_eq, if_neg]
  rintro ⟨t, -, ht⟩
  omega

lemma Invariant.threads_none (h : Invariant iAtomic numberIterations es s) {t : Fin 4}
    (ht : ¬(t.val < s.pc ∧ s.pc ≤ 4 + t.val)) : s.threads t = none := by
  rw [← h.running_iff, Bool.not_eq_true, Option.isSome_eq_false_iff] at ht
  exact Option.isNone_iff_eq_none.mp ht

lemma invariant_init : Invariant iAtomic numberIterations [] ⟨0, 0, fun _ => none, fun _ => 0⟩ := by
  have hzero : ∀ t : Fin 4, State.increments numberIterations
      (⟨0, 0, fun _ => none, fun _ => 0⟩ : State α) t = 0 := fun _ => rfl
  refine ⟨Nat.succ_pos 11, fun t => ?_, fun t i h => ?_, fun a => ?_, ?_⟩
  · exact iff_of_false Bool.false_ne_true (fun h => Nat.not_lt_zero _ h.1)
  · exact absurd h (Option.some_ne_none i).symm
  · rw [if_neg (fun ⟨t, _, ht⟩ => Nat.not_lt_zero _ ht), State.total,
      Finset.sum_eq_zero fun t _ => hzero t]
    rfl
  · rw [Finset.sum_eq_zero fun t _ => hzero t]
    exact (Nat.zero_mul _).symm

omit [DecidableEq α] in
lemma increments_succ (numberIterations : Nat) {t : Fin 4} {i : Nat} (ht : s.threads t = some i) :
    increments numberIterations s.pc (Function.update s.threads t (some (i + 1))) =
      Function.update (s.increments numberIterations) t (s.increments numberIterations t + 1) := by
  funext k
  by_cases hk : k = t
  · rw [hk, Function.update_self, State.increments, increments, increments,
      Function.update_self, ht]
    rfl
  · rw [Function.update_of_ne hk, State.increments, increments, increments,
      Function.update_of_ne hk]

lemma Invariant.increment (h : Invariant iAtomic numberIterations es s) {t : Fin 4} {i : Nat}
    (ht : s.threads t = some i) (hi : i < numberIterations) :
    Invariant iAtomic numberIterations (.increment t :: es)
      { s with
        threads := Function.update s.threads t (some (i + 1))
        atomics := Function.update s.atomics (iAtomic t) (s.atomics (iAtomic t) + 1) } := by
  have hrunning : t.val < s.pc ∧ s.pc ≤ 4 + t.val := (h.running_iff t).mp (by rw [ht]; rfl)
  have hpc : s.pc ≤ 8 := by omega
  have hincrements := increments_succ numberIterations ht
  refine ⟨h.pc_lt, fun k => ?_, fun k j hj => ?_, fun a => ?_, ?_⟩
  all_goals dsimp only at *
  · by_cases hk : k = t
    · rw [hk, Function.update_self]
      exact iff_of_true rfl hrunning
    · rw [Function.update_of_ne hk]
      exact h.running_iff k
  · by_cases hk : k = t
    · rw [hk, Function.update_self, Option.some_inj] at hj
      omega
    · rw [Function.update_of_ne hk] at hj
      exact h.counter_le k j hj
  · rw [if_neg (fun ⟨k, _, hk⟩ => by omega), State.total, State.increments]
    dsimp only
    have hmem : t ∈ Finset.univ.filter (fun k => iAtomic k = a) ↔ iAtomic t = a :=
      Finset.mem_filter_univ t
    rw [hincrements, sum_update_succ]
    by_cases ha : iAtomic t = a
    · rw [if_pos (hmem.mpr ha), ← ha, Function.update_self, h.not_reset hpc, BitVec.ofNat_add]
      rfl
    · rw [if_neg (hmem.not.mpr ha), Nat.add_zero, Function.update_of_ne (Ne.symm ha),
        h.not_reset hpc]
      rfl
  · rw [State.increments]
    dsimp only
    rw [hincrements, sum_update_succ, if_pos (Finset.mem_univ t), List.length_cons, h.length_eq]
    rfl

/-- A statement that starts or joins a thread. -/
lemma Invariant.advance (h : Invariant iAtomic numberIterations es s) (hpc : s.pc < 8)
    {threads : Fin 4 → Option Nat}
    (hrunning : ∀ k : Fin 4, (threads k).isSome ↔ k.val < s.pc + 1 ∧ s.pc + 1 ≤ 4 + k.val)
    (hcounter : ∀ k i, threads k = some i → i ≤ numberIterations)
    (hincrements : increments numberIterations (s.pc + 1) threads = s.increments numberIterations) :
    Invariant iAtomic numberIterations (.main :: es) { s with threads := threads }.advance := by
  have hadvance : State.advance { s with threads := threads } =
      { s with pc := s.pc + 1, threads := threads } := advance_of_lt (by dsimp only; omega)
  rw [hadvance]
  refine ⟨?_, hrunning, hcounter, fun a => ?_, ?_⟩
  · change s.pc + 1 < 12
    omega
  · rw [State.total, State.increments]
    dsimp only
    rw [if_neg (fun ⟨k, _, hk⟩ => by omega), hincrements, h.not_reset hpc.le]
    rfl
  · rw [State.increments]
    dsimp only
    rw [hincrements, List.length_cons, h.length_eq]
    omega

lemma Invariant.create (h : Invariant iAtomic numberIterations es s) {t : Fin 4}
    (hpc : s.pc = t.val) :
    Invariant iAtomic numberIterations (.main :: es)
      { s with threads := Function.update s.threads t (some 0) }.advance := by
  apply h.advance (by omega)
  · intro k
    by_cases hk : k = t
    · rw [hk, Function.update_self]
      exact iff_of_true rfl (by omega)
    · have hne : k.val ≠ t.val := Fin.val_ne_of_ne hk
      rw [Function.update_of_ne hk, h.running_iff]
      omega
  · intro k i hi
    by_cases hk : k = t
    · rw [hk, Function.update_self, Option.some_inj] at hi
      exact hi ▸ Nat.zero_le _
    · rw [Function.update_of_ne hk] at hi
      exact h.counter_le k i hi
  · funext k
    by_cases hk : k = t
    · have hnone : s.threads t = none := h.threads_none (by omega)
      rw [hk, State.increments, increments, increments, Function.update_self, hnone,
        Option.getD_some, Option.getD_none, if_neg (by omega)]
    · rw [State.increments, increments, increments, Function.update_of_ne hk, if_neg (by omega),
        if_neg (by omega)]

lemma Invariant.join (h : Invariant iAtomic numberIterations es s) {t : Fin 4}
    (hpc : s.pc = 4 + t.val) (ht : s.threads t = some numberIterations) :
    Invariant iAtomic numberIterations (.main :: es)
      { s with threads := Function.update s.threads t none }.advance := by
  apply h.advance (by omega)
  · intro k
    by_cases hk : k = t
    · rw [hk, Function.update_self]
      exact iff_of_false Bool.false_ne_true (by omega)
    · have hne : k.val ≠ t.val := Fin.val_ne_of_ne hk
      rw [Function.update_of_ne hk, h.running_iff]
      omega
  · intro k i hi
    by_cases hk : k = t
    · rw [hk, Function.update_self] at hi
      exact absurd hi (Option.some_ne_none i).symm
    · rw [Function.update_of_ne hk] at hi
      exact h.counter_le k i hi
  · funext k
    by_cases hk : k = t
    · rw [hk, State.increments, increments, increments, Function.update_self, ht,
        Option.getD_some, Option.getD_none, if_pos (by omega)]
    · have hne : k.val ≠ t.val := Fin.val_ne_of_ne hk
      have hiff : 4 + k.val < s.pc + 1 ↔ 4 + k.val < s.pc := by omega
      rw [State.increments, increments, increments, Function.update_of_ne hk]
      simp only [hiff]

/-- No thread runs while the atomics are reset. -/
lemma Invariant.increments_reset (h : Invariant iAtomic numberIterations es s) (hpc : 8 ≤ s.pc)
    (t : Fin 4) : s.threads t = none ∧ s.increments numberIterations t = numberIterations := by
  have hnone : s.threads t = none := h.threads_none (by omega)
  refine ⟨hnone, ?_⟩
  rw [State.increments, increments, hnone, Option.getD_none, if_pos (by omega)]

lemma Invariant.reset_of_lt (h : Invariant iAtomic numberIterations es s) {t : Fin 4}
    (hpc : s.pc = 8 + t.val) (ht : t.val < 3) :
    Invariant iAtomic numberIterations (.main :: es)
      { s with atomics := Function.update s.atomics (iAtomic t) 0 }.advance := by
  have hthreads := fun k => (h.increments_reset (by omega) k).1
  have hincrements : increments numberIterations (s.pc + 1) s.threads =
      s.increments numberIterations := by
    funext k
    rw [(h.increments_reset (by omega) k).2, increments, hthreads, Option.getD_none,
      if_pos (by omega)]
  rw [advance_of_lt (by dsimp only; omega)]
  refine ⟨?_, fun k => ?_, h.counter_le, fun a => ?_, ?_⟩
  · change s.pc + 1 < 12
    omega
  · dsimp only
    rw [hthreads]
    exact iff_of_false Bool.false_ne_true (by omega)
  · rw [State.total, State.increments]
    dsimp only
    rw [hincrements]
    by_cases ha : a = iAtomic t
    · rw [ha, Function.update_self, if_pos ⟨t, rfl, by omega⟩]
    · have hiff : (∃ k, iAtomic k = a ∧ 8 + k.val < s.pc + 1) ↔
          ∃ k, iAtomic k = a ∧ 8 + k.val < s.pc := by
        constructor
        · rintro ⟨k, rfl, hk⟩
          have hne : k.val ≠ t.val := fun heq => ha (congrArg iAtomic (Fin.ext heq))
          exact ⟨k, rfl, by omega⟩
        · rintro ⟨k, hka, hk⟩
          exact ⟨k, hka, by omega⟩
      simp only [Function.update_of_ne ha, h.atomics_eq, hiff, State.total]
  · rw [State.increments]
    dsimp only
    rw [hincrements, List.length_cons, h.length_eq]
    omega

lemma Invariant.reset_last (h : Invariant iAtomic numberIterations es s) {t : Fin 4}
    (hpc : s.pc = 11) (ht : t.val = 3) :
    Invariant iAtomic numberIterations (.main :: es)
      { s with atomics := Function.update s.atomics (iAtomic t) 0 }.advance := by
  have hthreads := fun k => (h.increments_reset (by omega) k).1
  have hzero : ∀ k, increments numberIterations 0 s.threads k = 0 := by
    intro k
    rw [increments, hthreads, Option.getD_none, if_neg (Nat.not_lt_zero _)]
  rw [advance_of_last (by exact hpc)]
  refine ⟨Nat.succ_pos 11, fun k => ?_, h.counter_le, fun a => ?_, ?_⟩
  · dsimp only
    rw [hthreads]
    exact iff_of_false Bool.false_ne_true (by omega)
  · rw [State.total, State.increments]
    dsimp only
    rw [if_neg (fun ⟨k, _, hk⟩ => Nat.not_lt_zero _ hk), Finset.sum_eq_zero fun k _ => hzero k]
    by_cases ha : a = iAtomic t
    · rw [ha, Function.update_self]
      rfl
    · rw [Function.update_of_ne ha, h.atomics_eq]
      by_cases hreset : ∃ k, iAtomic k = a ∧ 8 + k.val < s.pc
      · rw [if_pos hreset]
        rfl
      · -- the last reset was the only one that the atomic could still wait for
        rw [if_neg hreset, State.total, Finset.sum_eq_zero]
        intro k hk
        have hka := (Finset.mem_filter.mp hk).2
        have hne : k.val ≠ t.val := fun heq => ha (hka ▸ congrArg iAtomic (Fin.ext heq))
        exact absurd ⟨k, hka, by omega⟩ hreset
  · rw [State.increments]
    dsimp only
    rw [Finset.sum_eq_zero fun k _ => hzero k, List.length_cons, h.length_eq,
      Finset.sum_const_nat fun k _ => (h.increments_reset (by omega) k).2, Finset.card_univ,
      Fintype.card_fin, hpc]
    change _ * (_ + 12) + 11 + 4 * _ + 1 = (_ + 1) * (_ + 12) + 0 + 0
    rw [Nat.succ_mul s.rounds]
    omega

lemma Invariant.reset (h : Invariant iAtomic numberIterations es s) {t : Fin 4}
    (hpc : s.pc = 8 + t.val) :
    Invariant iAtomic numberIterations (.main :: es)
      { s with atomics := Function.update s.atomics (iAtomic t) 0 }.advance := by
  rcases Nat.lt_or_ge t.val 3 with ht | ht
  · exact h.reset_of_lt hpc ht
  · exact h.reset_last (by omega) (by omega)

lemma Invariant.step (h : Invariant iAtomic numberIterations es s) {e : Event} {s' : State α}
    (hstep : step iAtomic numberIterations s e = some s') :
    Invariant iAtomic numberIterations (e :: es) s' := by
  cases e with
  | main =>
    obtain ⟨statement, hstatement, hexecute⟩ := Option.bind_eq_some_iff.mp hstep
    obtain ⟨s', hs', rfl⟩ := Option.map_eq_some_iff.mp hexecute
    cases statement with
    | create t =>
      cases hs'
      exact h.create ((getElem?_body _ h.pc_lt t).1.mp hstatement)
    | join t =>
      obtain ⟨hfinished, hs'⟩ := Option.ite_none_right_eq_some.mp hs'
      cases hs'
      exact h.join ((getElem?_body _ h.pc_lt t).2.1.mp hstatement) hfinished
    | reset t =>
      cases hs'
      exact h.reset ((getElem?_body _ h.pc_lt t).2.2.mp hstatement)
  | increment t =>
    obtain ⟨i, hi, hs'⟩ := Option.bind_eq_some_iff.mp hstep
    obtain ⟨hlt, hs'⟩ := Option.ite_none_right_eq_some.mp hs'
    cases hs'
    exact h.increment hi hlt

lemma invariant_run (h : (falseSharing iAtomic numberIterations).Run es s) :
    Invariant iAtomic numberIterations es s := by
  induction h with
  | init hinit =>
    cases hinit
    exact invariant_init
  | step _ hstep ih => exact ih.step hstep

/-- A thread that the main thread waits for can go on. -/
lemma Invariant.exists_step (h : Invariant iAtomic numberIterations es s) :
    ∃ e s', (falseSharing iAtomic numberIterations).step s e s' := by
  have hmain : ∀ statement, body[s.pc]? = some statement → ∀ s',
      statement.execute iAtomic numberIterations s = some s' →
      (falseSharing iAtomic numberIterations).step s .main s'.advance := by
    intro statement hstatement s' hs'
    exact Option.bind_eq_some_iff.mpr ⟨statement, hstatement, congrArg (Option.map _) hs'⟩
  cases hbody : body[s.pc]? with
  | none => exact absurd h.pc_lt (Nat.not_lt.mpr (List.getElem?_eq_none_iff.mp hbody))
  | some statement =>
    cases statement with
    | create t => exact ⟨.main, _, hmain _ hbody _ rfl⟩
    | reset t => exact ⟨.main, _, hmain _ hbody _ rfl⟩
    | join t =>
      have hpc : s.pc = 4 + t.val := (getElem?_body _ h.pc_lt t).2.1.mp hbody
      obtain ⟨i, hi⟩ := Option.isSome_iff_exists.mp ((h.running_iff t).mpr (by omega))
      rcases (h.counter_le t i hi).lt_or_eq with hlt | rfl
      · exact ⟨.increment t, _, Option.bind_eq_some_iff.mpr ⟨i, hi, if_pos hlt⟩⟩
      · exact ⟨.main, _, hmain _ hbody _ (if_pos hi)⟩

lemma Invariant.increments_le (h : Invariant iAtomic numberIterations es s) (t : Fin 4) :
    s.increments numberIterations t ≤ numberIterations := by
  rw [State.increments, increments]
  cases ht : s.threads t with
  | some i => exact h.counter_le t i ht
  | none =>
    rw [Option.getD_none]
    split_ifs
    · exact le_rfl
    · exact Nat.zero_le _

lemma Invariant.total_le (h : Invariant iAtomic numberIterations es s) (a : α) :
    s.total iAtomic numberIterations a ≤ (Finset.univ.filter (iAtomic · = a)).card * numberIterations := by
  rw [State.total]
  apply (Finset.sum_le_sum fun t _ => h.increments_le t).trans_eq
  exact Finset.sum_const_nat fun t _ => rfl

lemma Invariant.toNat_le (h : Invariant iAtomic numberIterations es s) (a : α) :
    (s.atomics a).toNat ≤ (Finset.univ.filter (iAtomic · = a)).card * numberIterations := by
  rw [h.atomics_eq]
  split_ifs
  · exact Nat.zero_le _
  · rw [BitVec.toNat_ofNat]
    exact (Nat.mod_le _ _).trans (h.total_le a)

/-- However the threads are interleaved, the benchmark is never stuck, and every round of it
takes the same number of steps. No atomic ever exceeds the iterations of the threads that
share it, each holds exactly their sum when all threads are joined, no thread runs while
they are reset, and every round starts from zero. -/
theorem falseSharing_run (h : (falseSharing iAtomic numberIterations).Run es s) :
    (∃ e s', (falseSharing iAtomic numberIterations).step s e s') ∧
      s.rounds = es.length / (4 * numberIterations + 12) ∧
      (∀ a, (s.atomics a).toNat ≤
        (Finset.univ.filter (iAtomic · = a)).card * numberIterations) ∧
      (s.pc = 8 → ∀ a, s.atomics a =
        BitVec.ofNat 64 ((Finset.univ.filter (iAtomic · = a)).card * numberIterations)) ∧
      (8 ≤ s.pc → ∀ t, s.threads t = none) ∧ (s.pc = 0 → ∀ a, s.atomics a = 0) := by
  have hinv := invariant_run h
  refine ⟨hinv.exists_step, ?_, hinv.toNat_le, ?_, ?_, ?_⟩
  · have hsum : ∑ t, s.increments numberIterations t ≤ 4 * numberIterations := by
      apply (Finset.sum_le_sum fun t _ => hinv.increments_le t).trans_eq
      exact Finset.sum_const_nat fun t _ => rfl
    have hpc : s.pc < 12 := hinv.pc_lt
    have hlength : es.length = s.pc + ∑ t, s.increments numberIterations t +
        (4 * numberIterations + 12) * s.rounds := by
      rw [hinv.length_eq, Nat.add_assoc, Nat.add_comm, Nat.mul_comm]
      rfl
    rw [hlength, Nat.add_mul_div_left _ _ (by omega), Nat.div_eq_of_lt (by omega), Nat.zero_add]
  · intro hpc a
    rw [hinv.not_reset hpc.le, State.total,
      Finset.sum_const_nat fun t _ => (hinv.increments_reset hpc.ge t).2]
  · exact fun hpc t => (hinv.increments_reset hpc t).1
  · intro hpc a
    have hzero : ∀ t, s.increments numberIterations t = 0 := by
      intro t
      have hnone : s.threads t = none := hinv.threads_none (by omega)
      rw [State.increments, increments, hnone, Option.getD_none, if_neg (by omega)]
    rw [hinv.not_reset (by omega), State.total, Finset.sum_eq_zero fun t _ => hzero t]
    rfl

/-- Threads that share two atomics take turns, up to where the last of them is joined. -/
theorem falseSharing_run_joined : ∃ es s,
    (falseSharing (fun t : Fin 4 => t.val / 2) 2).Run es s ∧ s.pc = 8 ∧
      s.atomics 0 = 4 ∧ s.atomics 1 = 4 ∧ ∀ t, s.threads t = none := by
  let created : List Event := [.main, .main, .main, .increment 0, .main]
  let counted : List Event := [.increment 3, .increment 1, .increment 2, .increment 1,
    .increment 2, .increment 0, .increment 3]
  let joined : List Event := [.main, .main, .main, .main]
  have hpc : ((joined ++ counted ++ created).foldr
      (fun e s => s.bind (step (fun t : Fin 4 => t.val / 2) 2 · e))
      (some ⟨0, 0, fun _ => none, fun _ => 0⟩)).map State.pc = some 8 := by decide
  obtain ⟨s, hs, hpc⟩ := Option.map_eq_some_iff.mp hpc
  have hrun : (falseSharing (fun t : Fin 4 => t.val / 2) 2).Run (joined ++ counted ++ created) s :=
    run_of_foldr (fun _ _ _ => id) rfl hs
  obtain ⟨-, -, -, hsums, hthreads, -⟩ := falseSharing_run hrun
  exact ⟨_, s, hrun, hpc, hsums hpc 0, hsums hpc 1, hthreads hpc.ge⟩

end Invariant

end FalseSharing

end CppBenchmark
