import Mathlib.Logic.Function.Iterate
import Mathlib.Tactic.Cases
import Mathlib.Tactic.Lemma
import Mathlib.Tactic.TypeStar

/-!
# While loops

A loop with a bound on its rounds. It returns the first state of the orbit of its body in
which the condition fails, once the bound reaches that far.
-/

section WhileLoop

variable {σ : Type*} {condition : σ → Prop} {body : σ → σ} {s s' : σ}

def whileLoop (condition : σ → Prop) [DecidablePred condition] (body : σ → σ) : Nat → σ → Option σ
  | 0, _ => none
  | fuel + 1, s => if condition s then whileLoop condition body fuel (body s) else some s

/-- The rounds before `rounds` go on and this one does not. -/
structure StopsAt (condition : σ → Prop) (body : σ → σ) (s : σ) (rounds : Nat) : Prop where
  stop : ¬condition (body^[rounds] s)
  before : ∀ r < rounds, condition (body^[r] s)

lemma StopsAt.succ {rounds : Nat} (hs : condition s)
    (h : StopsAt condition body (body s) rounds) :
    StopsAt condition body s (rounds + 1) where
  stop := h.stop
  before r hr := by
    cases r with
    | zero => exact hs
    | succ r => exact h.before r (Nat.lt_of_succ_lt_succ hr)

lemma StopsAt.of_succ {rounds : Nat} (h : StopsAt condition body s (rounds + 1)) :
    condition s ∧ StopsAt condition body (body s) rounds :=
  ⟨h.before 0 (Nat.succ_pos rounds), h.stop, fun r hr => h.before (r + 1) (Nat.succ_lt_succ hr)⟩

variable [DecidablePred condition] {fuel : Nat}

theorem whileLoop_eq_some_iff :
    whileLoop condition body fuel s = some s' ↔
      ∃ rounds < fuel, StopsAt condition body s rounds ∧ s' = body^[rounds] s := by
  induction fuel generalizing s with
  | zero =>
    constructor
    · intro h
      exact absurd h (Option.some_ne_none s').symm
    · rintro ⟨rounds, hrounds, -⟩
      exact absurd hrounds (Nat.not_lt_zero rounds)
  | succ fuel ih =>
    by_cases hs : condition s
    · rw [whileLoop, if_pos hs, ih]
      constructor
      · rintro ⟨rounds, hrounds, hstop, rfl⟩
        exact ⟨rounds + 1, Nat.succ_lt_succ hrounds, hstop.succ hs, rfl⟩
      · rintro ⟨rounds, hrounds, hstop, rfl⟩
        cases rounds with
        | zero => exact absurd hs hstop.stop
        | succ rounds => exact ⟨rounds, Nat.lt_of_succ_lt_succ hrounds, hstop.of_succ.2, rfl⟩
    · rw [whileLoop, if_neg hs, Option.some_inj]
      constructor
      · rintro rfl
        exact ⟨0, Nat.succ_pos fuel, ⟨hs, fun r hr => absurd hr (Nat.not_lt_zero r)⟩, rfl⟩
      · rintro ⟨rounds, -, hstop, rfl⟩
        cases rounds with
        | zero => rfl
        | succ rounds => exact absurd hstop.of_succ.1 hs

end WhileLoop
