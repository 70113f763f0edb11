import Mathlib.Tactic.Lemma
import Mathlib.Tactic.TypeStar

/-!
# Labelled transition systems

Runs carry their labels, most recent first. An invariant is shown for one step and
holds along every run; a forward simulation matches every run of the concrete system
by a run of the abstract system with the same labels.
-/

structure TransitionSystem (σ ι : Type*) where
  init : σ → Prop
  step : σ → ι → σ → Prop

namespace TransitionSystem

variable {σ τ ι : Type*}

/-- `T.Run es s`: some run with the labels `es`, most recent first, ends in `s`. -/
inductive Run (T : TransitionSystem σ ι) : List ι → σ → Prop
  | init {s : σ} (h : T.init s) : T.Run [] s
  | step {es : List ι} {s s' : σ} {e : ι} (hrun : T.Run es s) (h : T.step s e s') :
    T.Run (e :: es) s'

/-- `T.Path es ss`: some run with the labels `es` passes through the states `ss`, most recent
first. -/
inductive Path (T : TransitionSystem σ ι) : List ι → List σ → Prop
  | init {s : σ} (h : T.init s) : T.Path [] [s]
  | step {es : List ι} {s s' : σ} {ss : List σ} {e : ι} (hpath : T.Path es (s :: ss))
    (h : T.step s e s') : T.Path (e :: es) (s' :: s :: ss)

/-- The system whose steps also meet a condition on the state before the step. -/
def restrict (T : TransitionSystem σ ι) (good : σ → ι → Prop) : TransitionSystem σ ι where
  init := T.init
  step s e s' := T.step s e s' ∧ good s e

theorem Run.invariant {T : TransitionSystem σ ι} {P : σ → Prop} {es : List ι} {s : σ}
    (h : T.Run es s) (hinit : ∀ s, T.init s → P s)
    (hstep : ∀ s e s', P s → T.step s e s' → P s') : P s := by
  induction h with
  | init h => exact hinit _ h
  | step _ h ih => exact hstep _ _ _ ih h

/-- A property that just the good steps keep holds in all states that a run passes through
exactly when its steps are good. -/
theorem Path.forall_iff {T : TransitionSystem σ ι} {P : σ → Prop} {good : ι → Prop}
    {es : List ι} {ss : List σ} (h : T.Path es ss) (hinit : ∀ s, T.init s → P s)
    (hstep : ∀ s e s', P s → T.step s e s' → (P s' ↔ good e)) :
    (∀ s ∈ ss, P s) ↔ ∀ e ∈ es, good e := by
  induction h with
  | init h =>
    rw [List.forall_mem_singleton]
    exact iff_of_true (hinit _ h) (fun e he => absurd he List.not_mem_nil)
  | step _ h ih =>
    rw [List.forall_mem_cons, @List.forall_mem_cons ι]
    constructor
    · rintro ⟨hafter, hbefore⟩
      exact ⟨(hstep _ _ _ (hbefore _ List.mem_cons_self) h).mp hafter, ih.mp hbefore⟩
    · rintro ⟨hgood, hrest⟩
      have hbefore := ih.mpr hrest
      exact ⟨(hstep _ _ _ (hbefore _ List.mem_cons_self) h).mpr hgood, hbefore⟩

/-- A run computed label by label, for steps that are those of a function. -/
lemma run_of_foldr {T : TransitionSystem σ ι} {next : σ → ι → Option σ}
    (hnext : ∀ s e s', next s e = some s' → T.step s e s') {s₀ : σ} (h₀ : T.init s₀)
    {es : List ι} {s : σ} (h : es.foldr (fun e s => s.bind (next · e)) (some s₀) = some s) :
    T.Run es s := by
  induction es generalizing s with
  | nil =>
    obtain rfl : s₀ = s := Option.some_inj.mp h
    exact .init h₀
  | cons e es ih =>
    obtain ⟨s', hrun, hstep⟩ := Option.bind_eq_some_iff.mp h
    exact .step (ih hrun) (hnext s' e s hstep)

lemma Run.of_restrict {T : TransitionSystem σ ι} {good : σ → ι → Prop} {es : List ι} {s : σ}
    (h : (T.restrict good).Run es s) : T.Run es s := by
  induction h with
  | init h => exact .init h
  | step _ h ih => exact .step ih h.1

/-- Every concrete step from related states is an abstract step with the same label. -/
structure ForwardSimulation (C : TransitionSystem σ ι) (A : TransitionSystem τ ι)
    (R : σ → τ → Prop) : Prop where
  init : ∀ c, C.init c → ∃ a, A.init a ∧ R c a
  step : ∀ c a e c', R c a → C.step c e c' → ∃ a', A.step a e a' ∧ R c' a'

theorem ForwardSimulation.run {C : TransitionSystem σ ι} {A : TransitionSystem τ ι}
    {R : σ → τ → Prop} (hsim : ForwardSimulation C A R) {es : List ι} {c : σ} (h : C.Run es c) :
    ∃ a, A.Run es a ∧ R c a := by
  induction h with
  | init h =>
    obtain ⟨a, ha, hR⟩ := hsim.init _ h
    exact ⟨a, .init ha, hR⟩
  | step _ h ih =>
    obtain ⟨a, ha, hR⟩ := ih
    obtain ⟨a', ha', hR'⟩ := hsim.step _ _ _ _ hR h
    exact ⟨a', .step ha ha', hR'⟩

end TransitionSystem
