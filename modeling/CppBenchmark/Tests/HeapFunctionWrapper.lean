import CppBenchmark.Tests.FunctionWrapper

/-!
# Type erasure on the heap

A `HeapAllocationFunctionWrapper` owns the `FunctionWrapperImpl` of its functor through a
`std::unique_ptr`. Assignment constructs a temporary and swaps with it, and the temporary
takes the old functor with it. Deleting what is not allocated has no result in the model.
-/

namespace CppBenchmark

open TransitionSystem

/-- The impls on the heap by their addresses, and the pointers in the live wrappers, none
for a null pointer. -/
structure HeapState where
  heap : Nat → Option Functor
  wrappers : Nat → Option (Option Nat)

namespace UniquePtr

def get (this : Nat) (s : HeapState) : Option Nat := (s.wrappers this).join

def set (this : Nat) (p : Option Nat) (s : HeapState) : HeapState :=
  { s with wrappers := Function.update s.wrappers this (some p) }

/-- `new` of an impl at `p`. -/
def allocate (p : Nat) (f : Functor) (s : HeapState) : HeapState :=
  { s with heap := Function.update s.heap p (some f) }

/-- `delete` of an allocated impl. -/
def delete (p : Nat) (s : HeapState) : Option HeapState :=
  if (s.heap p).isSome then some { s with heap := Function.update s.heap p none } else none

/-- The pointer, and the state in which it is null. -/
def release (this : Nat) (s : HeapState) : Option Nat × HeapState := (get this s, set this none s)

/-- The new pointer is in place before the old one is deleted. -/
def reset (this : Nat) (p : Option Nat) (s : HeapState) : Option HeapState :=
  match get this s with
  | none => some (set this p s)
  | some old => delete old (set this p s)

end UniquePtr

namespace HeapAllocationFunctionWrapper

open UniquePtr

def constructDefault (this : Nat) (s : HeapState) : HeapState := set this none s

/-- The constructor from a functor, with its impl allocated at `impl`. -/
def construct (this impl : Nat) (iFunctor : Functor) (s : HeapState) : Option HeapState :=
  reset this (some impl) (allocate impl iFunctor (constructDefault this s))

def moveConstruct (this other : Nat) (s : HeapState) : HeapState :=
  let released := release other s
  set this released.1 released.2

def moveAssign (this other : Nat) (s : HeapState) : Option HeapState :=
  let released := release other s
  reset this released.1 released.2

def destroy (this : Nat) (s : HeapState) : Option HeapState :=
  (reset this none s).map (fun s => { s with wrappers := Function.update s.wrappers this none })

/-- `std::swap`, with its local at `c`. -/
def swap (this other c : Nat) (s : HeapState) : Option HeapState := do
  let s ← moveAssign this other (moveConstruct c this s)
  let s ← moveAssign other c s
  destroy c s

/-- `operator=` of a functor, with its temporary at `tmp` and the local of the swap at `c`. -/
def assign (this tmp c impl : Nat) (iFunction : Functor) (s : HeapState) : Option HeapState := do
  let s ← construct tmp impl iFunction s
  let s ← swap this tmp c s
  destroy tmp s

end HeapAllocationFunctionWrapper

inductive HeapEvent
  | constructDefault (this : Nat)
  | construct (this impl : Nat) (iFunctor : Functor)
  | assign (this tmp c impl : Nat) (iFunction : Functor)
  | moveConstruct (this other : Nat)
  | moveAssign (this other : Nat)
  | swap (this other c : Nat)
  | destroy (this : Nat)

namespace HeapEvent

def Lives (s : HeapState) (this : Nat) : Prop := (s.wrappers this).isSome

/-- Objects are constructed where none lives, and impls where none is allocated. -/
def Enabled (s : HeapState) : HeapEvent → Prop
  | .constructDefault this => s.wrappers this = none
  | .construct this impl _ => s.wrappers this = none ∧ s.heap impl = none
  | .assign this tmp c impl _ => Lives s this ∧ s.wrappers tmp = none ∧ s.wrappers c = none ∧
    c ≠ tmp ∧ s.heap impl = none
  | .moveConstruct this other => s.wrappers this = none ∧ Lives s other
  | .moveAssign this other => Lives s this ∧ Lives s other
  | .swap this other c => Lives s this ∧ Lives s other ∧ s.wrappers c = none
  | .destroy this => Lives s this

def exec : HeapEvent → HeapState → Option HeapState
  | .constructDefault this => fun s => some (HeapAllocationFunctionWrapper.constructDefault this s)
  | .construct this impl iFunctor => HeapAllocationFunctionWrapper.construct this impl iFunctor
  | .assign this tmp c impl iFunction =>
    HeapAllocationFunctionWrapper.assign this tmp c impl iFunction
  | .moveConstruct this other =>
    fun s => some (HeapAllocationFunctionWrapper.moveConstruct this other s)
  | .moveAssign this other => HeapAllocationFunctionWrapper.moveAssign this other
  | .swap this other c => HeapAllocationFunctionWrapper.swap this other c
  | .destroy this => HeapAllocationFunctionWrapper.destroy this

end HeapEvent

/-- What the wrappers are for: each live one holds a functor or none. -/
abbrev GivenState := Nat → Option (Option Functor)

namespace GivenState

variable (t : GivenState)

def construct (this : Nat) (f : Option Functor) : GivenState := Function.update t this (some f)

/-- The functor of `other` moves to `this`. -/
def move (this other : Nat) : GivenState :=
  Function.update (Function.update t other (some none)) this (t other)

def destroy (this : Nat) : GivenState := Function.update t this none

/-- A wrapper holds the functor last given to it, until that is moved away. -/
def after : HeapEvent → GivenState
  | .constructDefault this => t.construct this none
  | .construct this _ iFunctor => t.construct this (some iFunctor)
  | .assign this _ _ _ iFunction => t.construct this (some iFunction)
  | .moveConstruct this other => t.move this other
  | .moveAssign this other => t.move this other
  | .swap this other _ => t ∘ Equiv.swap this other
  | .destroy this => t.destroy this

end GivenState

/-- Every impl on the heap is owned by exactly one live wrapper, and each wrapper owns the
functor that it was given. -/
structure Holds (s : HeapState) (t : GivenState) : Prop where
  given_eq : ∀ a, t a = (s.wrappers a).map (fun p => p.bind s.heap)
  allocated_iff : ∀ p, (s.heap p).isSome ↔ ∃ a, s.wrappers a = some (some p)
  unique : ∀ a b p, s.wrappers a = some (some p) → s.wrappers b = some (some p) → a = b

section Steps

open UniquePtr HeapAllocationFunctionWrapper HeapEvent

variable {s s' : HeapState} {t t' : GivenState} {this other tmp c impl : Nat} {f : Functor}

lemma get_set (this : Nat) (p : Option Nat) (s : HeapState) :
    UniquePtr.get this (UniquePtr.set this p s) = p := by
  change (Function.update s.wrappers this (some p) this).join = p
  rw [Function.update_self]
  rfl

lemma get_set_of_ne {a : Nat} (h : a ≠ this) (p : Option Nat) (s : HeapState) :
    UniquePtr.get a (UniquePtr.set this p s) = UniquePtr.get a s := by
  change (Function.update s.wrappers this (some p) a).join = _
  rw [Function.update_of_ne h]
  rfl

lemma get_eq_of_wrappers {p : Option Nat} (h : s.wrappers this = some p) :
    UniquePtr.get this s = p := by
  rw [UniquePtr.get, h, Option.join_some]

lemma reset_null (h : UniquePtr.get this s = none) (p : Option Nat) :
    reset this p s = some (UniquePtr.set this p s) := by
  rw [reset, h]

/-- The heap after the deletion of what a pointer points to. -/
def without (p : Option Nat) (heap : Nat → Option Functor) : Nat → Option Functor :=
  match p with
  | none => heap
  | some old => Function.update heap old none

lemma reset_eq (h : ∀ old, UniquePtr.get this s = some old → (s.heap old).isSome) (p : Option Nat) :
    reset this p s = some ⟨without (UniquePtr.get this s) s.heap,
      Function.update s.wrappers this (some p)⟩ := by
  cases hget : UniquePtr.get this s with
  | none => exact reset_null hget p
  | some old =>
    have hset : ((UniquePtr.set this p s).heap old).isSome := h old hget
    rw [reset, hget]
    dsimp only
    rw [delete, if_pos hset]
    rfl

/-- Pointers change hands, and the heap stays. -/
lemma Holds.permute (h : Holds s t) (σ : Equiv.Perm Nat) (hheap : s'.heap = s.heap)
    (howner : ∀ a p, s'.wrappers a = some (some p) ↔ s.wrappers (σ a) = some (some p))
    (hgiven : ∀ a, t' a = (s'.wrappers a).map (fun p => p.bind s.heap)) : Holds s' t' where
  given_eq a := by rw [hheap, hgiven]
  allocated_iff p := by
    rw [hheap, h.allocated_iff]
    simp only [howner]
    exact σ.surjective.exists
  unique a b p ha hb := by
    rw [howner] at ha hb
    exact σ.injective (h.unique _ _ p ha hb)

lemma Holds.constructDefault (h : Holds s t) (hthis : s.wrappers this = none) :
    Holds (constructDefault this s) (t.construct this none) := by
  refine h.permute (Equiv.refl Nat) ?_ ?_ ?_
  · rfl
  · intro a p
    change Function.update s.wrappers this (some none) a = _ ↔ s.wrappers a = _
    by_cases ha : a = this
    · rw [ha, Function.update_self, hthis]
      simp
    · rw [Function.update_of_ne ha]
  · intro a
    change Function.update t this (some none) a = (Function.update s.wrappers this _ a).map _
    by_cases ha : a = this
    · rw [ha, Function.update_self, Function.update_self]
      rfl
    · rw [Function.update_of_ne ha, Function.update_of_ne ha]
      exact h.given_eq a

lemma moveConstruct_wrappers (this other : Nat) (s : HeapState) :
    (moveConstruct this other s).wrappers =
      Function.update (Function.update s.wrappers other (some none)) this (some (get other s)) := rfl

lemma Holds.moveConstruct (h : Holds s t) (hthis : s.wrappers this = none) (hother : Lives s other) :
    Holds (moveConstruct this other s) (t.move this other) := by
  obtain ⟨q, hq⟩ := Option.isSome_iff_exists.mp hother
  have hget := get_eq_of_wrappers hq
  have hne : other ≠ this := by
    rintro rfl
    rw [hthis] at hq
    cases hq
  refine h.permute (Equiv.swap this other) ?_ ?_ ?_
  · rfl
  · intro a p
    rw [moveConstruct_wrappers, hget]
    by_cases ha : a = this
    · rw [ha, Function.update_self, Equiv.swap_apply_left, hq]
    · rw [Function.update_of_ne ha]
      by_cases ha' : a = other
      · rw [ha', Function.update_self, Equiv.swap_apply_right, hthis]
        simp
      · rw [Function.update_of_ne ha', Equiv.swap_apply_of_ne_of_ne ha ha']
  · intro a
    rw [moveConstruct_wrappers, hget, GivenState.move]
    by_cases ha : a = this
    · rw [ha, Function.update_self, Function.update_self, h.given_eq, hq]
    · rw [Function.update_of_ne ha, Function.update_of_ne ha]
      by_cases ha' : a = other
      · rw [ha', Function.update_self, Function.update_self]
        rfl
      · rw [Function.update_of_ne ha', Function.update_of_ne ha', h.given_eq]

/-- What the heap holds elsewhere matters to the owners of other impls only. -/
lemma map_bind_update {w : Option (Option Nat)} {heap : Nat → Option Functor} {p : Nat}
    {x : Option Functor} (h : w ≠ some (some p)) :
    w.map (fun q => q.bind (Function.update heap p x)) = w.map (fun q => q.bind heap) := by
  rcases w with _ | _ | q
  · rfl
  · rfl
  · have hq : q ≠ p := by
      rintro rfl
      exact h rfl
    change some (Function.update heap p x q) = _
    rw [Function.update_of_ne hq]
    rfl

lemma construct_eq (this impl : Nat) (f : Functor) (s : HeapState) :
    HeapAllocationFunctionWrapper.construct this impl f s =
      some ⟨Function.update s.heap impl (some f),
        Function.update s.wrappers this (some (some impl))⟩ := by
  have hnone : UniquePtr.get this (allocate impl f
      (HeapAllocationFunctionWrapper.constructDefault this s)) = none :=
    get_set this none s
  rw [HeapAllocationFunctionWrapper.construct, reset_null hnone]
  change some (HeapState.mk _ (Function.update (Function.update s.wrappers this _) this _)) = _
  rw [Function.update_idem]
  rfl

/-- Every owner keeps what it owns, and the new object owns the new impl. -/
lemma owner_construct_iff (hthis : s.wrappers this = none) {a p : Nat} :
    Function.update s.wrappers this (some (some impl)) a = some (some p) ↔
      (a = this ∧ p = impl) ∨ s.wrappers a = some (some p) := by
  by_cases ha : a = this
  · rw [ha, Function.update_self, hthis, Option.some_inj, Option.some_inj]
    simp [eq_comm]
  · rw [Function.update_of_ne ha]
    exact (or_iff_right (fun h => ha h.1)).symm

/-- A functor on the heap for a wrapper that was null. -/
lemma Holds.construct (h : Holds s t) (hthis : s.wrappers this = none) (himpl : s.heap impl = none) :
    ∃ s', construct this impl f s = some s' ∧ Holds s' (t.construct this (some f)) ∧
      s'.wrappers = Function.update s.wrappers this (some (some impl)) := by
  have hfree : ∀ a, s.wrappers a ≠ some (some impl) := by
    intro a ha
    have hsome := (h.allocated_iff impl).mpr ⟨a, ha⟩
    rw [himpl] at hsome
    cases hsome
  refine ⟨_, construct_eq this impl f s, ⟨?_, ?_, ?_⟩, rfl⟩
  · intro a
    change Function.update t this _ a = (Function.update s.wrappers this _ a).map _
    by_cases ha : a = this
    · rw [ha, Function.update_self, Function.update_self]
      change some (some f) = some (Function.update s.heap impl (some f) impl)
      rw [Function.update_self]
    · rw [Function.update_of_ne ha, Function.update_of_ne ha, map_bind_update (hfree a), h.given_eq]
  · intro p
    simp only [owner_construct_iff hthis]
    by_cases hp : p = impl
    · rw [hp, Function.update_self]
      exact iff_of_true rfl ⟨this, Or.inl ⟨rfl, rfl⟩⟩
    · rw [Function.update_of_ne hp, h.allocated_iff]
      simp only [hp, and_false, false_or]
  · intro a b p ha hb
    rcases (owner_construct_iff hthis).mp ha with ⟨hat, rfl⟩ | haold
    · rcases (owner_construct_iff hthis).mp hb with ⟨hbt, -⟩ | hbold
      · rw [hat, hbt]
      · exact absurd hbold (hfree b)
    · rcases (owner_construct_iff hthis).mp hb with ⟨-, rfl⟩ | hbold
      · exact absurd haold (hfree a)
      · exact h.unique a b p haold hbold

lemma wrappers_of_get {p : Nat} (h : UniquePtr.get this s = some p) :
    s.wrappers this = some (some p) := Option.join_eq_some_iff.mp h

lemma Holds.allocated (h : Holds s t) (this : Nat) :
    ∀ old, UniquePtr.get this s = some old → (s.heap old).isSome :=
  fun old hget => (h.allocated_iff old).mpr ⟨this, wrappers_of_get hget⟩

lemma Holds.destroy_eq (h : Holds s t) (this : Nat) :
    HeapAllocationFunctionWrapper.destroy this s = some ⟨without (UniquePtr.get this s) s.heap,
      Function.update s.wrappers this none⟩ := by
  rw [HeapAllocationFunctionWrapper.destroy, reset_eq (h.allocated this)]
  change some (HeapState.mk _ (Function.update (Function.update s.wrappers this _) this _)) = _
  rw [Function.update_idem]

lemma owner_destroyed_iff {a p : Nat} :
    Function.update s.wrappers this none a = some (some p) ↔
      a ≠ this ∧ s.wrappers a = some (some p) := by
  by_cases ha : a = this
  · rw [ha, Function.update_self]
    simp
  · rw [Function.update_of_ne ha]
    simp [ha]

lemma given_destroyed {heap : Nat → Option Functor}
    (hheap : ∀ a, a ≠ this → (s.wrappers a).map (fun p => p.bind heap) = t a) (a : Nat) :
    t.destroy this a = (Function.update s.wrappers this none a).map (fun p => p.bind heap) := by
  unfold GivenState.destroy
  by_cases ha : a = this
  · rw [ha, Function.update_self, Function.update_self]
    rfl
  · rw [Function.update_of_ne ha, Function.update_of_ne ha, hheap a ha]

/-- With an object goes the impl that it owns, if it owns one. -/
lemma Holds.destroyed (h : Holds s t) (this : Nat) :
    Holds ⟨without (UniquePtr.get this s) s.heap, Function.update s.wrappers this none⟩
      (t.destroy this) := by
  cases hget : UniquePtr.get this s with
  | none =>
    refine h.permute (Equiv.refl Nat) rfl ?_ (given_destroyed (fun a _ => (h.given_eq a).symm))
    intro a p
    refine owner_destroyed_iff.trans ⟨And.right, fun ha => ⟨?_, ha⟩⟩
    rintro rfl
    have hp : UniquePtr.get a s = some p := get_eq_of_wrappers ha
    cases hget.symm.trans hp
  | some old =>
    have hq := wrappers_of_get hget
    have hother : ∀ a, a ≠ this → s.wrappers a ≠ some (some old) :=
      fun a ha haold => ha (h.unique a this old haold hq)
    refine ⟨given_destroyed (fun a ha => (map_bind_update (hother a ha)).trans (h.given_eq a).symm),
      ?_, ?_⟩
    · intro p
      simp only [owner_destroyed_iff]
      change (Function.update s.heap old none p).isSome ↔ _
      by_cases hp : p = old
      · rw [hp, Function.update_self]
        refine iff_of_false Bool.false_ne_true ?_
        rintro ⟨a, hne, ha⟩
        exact hother a hne ha
      · rw [Function.update_of_ne hp, h.allocated_iff]
        constructor
        · rintro ⟨a, ha⟩
          refine ⟨a, ?_, ha⟩
          rintro rfl
          exact hp (Option.some.inj (Option.some.inj (ha.symm.trans hq)))
        · rintro ⟨a, -, ha⟩
          exact ⟨a, ha⟩
    · intro a b p ha hb
      exact h.unique a b p (owner_destroyed_iff.mp ha).2 (owner_destroyed_iff.mp hb).2

lemma ne_of_lives (hthis : s.wrappers this = none) (hother : Lives s other) : other ≠ this := by
  rintro rfl
  unfold Lives at hother
  rw [hthis] at hother
  cases hother

lemma moveAssign_eq (h : ∀ old, UniquePtr.get this (UniquePtr.set other none s) = some old →
    (s.heap old).isSome) :
    moveAssign this other s = some
      ⟨without (UniquePtr.get this (UniquePtr.set other none s)) s.heap,
        Function.update (Function.update s.wrappers other (some none)) this
          (some (UniquePtr.get other s))⟩ :=
  @reset_eq (UniquePtr.set other none s) this h (UniquePtr.get other s)

/-- Moving from a wrapper to itself changes nothing, and moving to another one deletes what
that owned. -/
lemma Holds.moveAssign (h : Holds s t) (hthis : Lives s this) (hother : Lives s other) :
    ∃ s', moveAssign this other s = some s' ∧ Holds s' (t.move this other) := by
  by_cases hne : this = other
  · subst hne
    obtain ⟨q, hq⟩ := Option.isSome_iff_exists.mp hthis
    refine ⟨s, ?_, ?_⟩
    · rw [moveAssign_eq (by rw [get_set]; exact fun old hold => absurd hold (by simp)), get_set,
        get_eq_of_wrappers hq, Function.update_idem, ← hq, Function.update_eq_self]
      rfl
    · rw [GivenState.move, Function.update_idem, Function.update_eq_self]
      exact h
  · have hget : UniquePtr.get this (UniquePtr.set other none s) = UniquePtr.get this s :=
      get_set_of_ne hne none s
    have hdestroyed := h.destroyed this
    have hlives : Lives ⟨without (UniquePtr.get this s) s.heap, Function.update s.wrappers this none⟩
        other := by
      unfold Lives
      dsimp only
      rw [Function.update_of_ne (Ne.symm hne)]
      exact hother
    have hmoved := hdestroyed.moveConstruct (Function.update_self this none s.wrappers) hlives
    have hmove : (t.destroy this).move this other = t.move this other := by
      unfold GivenState.move GivenState.destroy
      rw [Function.update_of_ne (Ne.symm hne), Function.update_comm hne, Function.update_idem]
    have hwrappers : (HeapAllocationFunctionWrapper.moveConstruct this other
        ⟨without (UniquePtr.get this s) s.heap, Function.update s.wrappers this none⟩).wrappers =
        Function.update (Function.update s.wrappers other (some none)) this
          (some (UniquePtr.get other s)) := by
      rw [moveConstruct_wrappers]
      unfold UniquePtr.get
      dsimp only
      rw [Function.update_of_ne (Ne.symm hne), Function.update_comm hne, Function.update_idem]
    refine ⟨_, moveAssign_eq (by rw [hget]; exact h.allocated this), ?_⟩
    rw [hget, ← hwrappers, ← hmove]
    exact hmoved

/-- A null wrapper takes over the pointer of another one and nothing is deleted. -/
lemma moveAssign_null (h : UniquePtr.get this (UniquePtr.set other none s) = none) :
    moveAssign this other s = some ⟨s.heap, Function.update (Function.update s.wrappers other
      (some none)) this (some (UniquePtr.get other s))⟩ :=
  reset_null h (UniquePtr.get other s)

lemma destroy_null (h : UniquePtr.get this s = none) :
    HeapAllocationFunctionWrapper.destroy this s =
      some ⟨s.heap, Function.update s.wrappers this none⟩ := by
  rw [HeapAllocationFunctionWrapper.destroy, reset_null h]
  change some (HeapState.mk _ (Function.update (Function.update s.wrappers this _) this _)) = _
  rw [Function.update_idem]
  rfl

/-- A swap exchanges the pointers and deletes nothing. -/
lemma swap_eq (hthis : Lives s this) (hother : Lives s other) (hc : s.wrappers c = none) :
    HeapAllocationFunctionWrapper.swap this other c s =
      some ⟨s.heap, s.wrappers ∘ Equiv.swap this other⟩ := by
  have hcthis := ne_of_lives hc hthis
  have hcother := ne_of_lives hc hother
  obtain ⟨q, hq⟩ := Option.isSome_iff_exists.mp hthis
  obtain ⟨r, hr⟩ := Option.isSome_iff_exists.mp hother
  have hget : UniquePtr.get this s = q := get_eq_of_wrappers hq
  let s₁ := HeapAllocationFunctionWrapper.moveConstruct c this s
  have hs₁ : s₁.wrappers = Function.update (Function.update s.wrappers this (some none)) c (some q) := by
    rw [← hget]
    rfl
  let s₂ : HeapState := ⟨s.heap, Function.update (Function.update s₁.wrappers other (some none)) this
    (some (UniquePtr.get other s₁))⟩
  let s₃ : HeapState := ⟨s.heap, Function.update (Function.update s₂.wrappers c (some none)) other
    (some (UniquePtr.get c s₂))⟩
  have h₁ : moveAssign this other s₁ = some s₂ := by
    apply moveAssign_null
    simp [UniquePtr.get, UniquePtr.set, hs₁, Function.update_apply, hcthis]
  have h₂ : moveAssign other c s₂ = some s₃ := by
    apply moveAssign_null
    by_cases hsame : other = this
    · simp [UniquePtr.get, UniquePtr.set, s₂, hs₁, hcthis, hsame]
    · simp [UniquePtr.get, UniquePtr.set, s₂, hs₁, hcother, hsame]
  have h₃ : UniquePtr.get c s₃ = none := by
    simp [UniquePtr.get, s₃, hcother.symm]
  change (moveAssign this other s₁).bind _ = _
  rw [h₁, Option.bind_some, h₂]
  change HeapAllocationFunctionWrapper.destroy c s₃ = _
  rw [destroy_null h₃, Equiv.comp_swap_eq_update]
  refine congrArg some (congrArg (HeapState.mk s.heap) ?_)
  funext a
  simp only [s₃, s₂, hs₁, UniquePtr.get, Function.update_apply, hq, hr]
  split_ifs <;> simp_all

lemma Holds.swap (h : Holds s t) (this other : Nat) :
    Holds ⟨s.heap, s.wrappers ∘ Equiv.swap this other⟩ (t ∘ Equiv.swap this other) :=
  h.permute (Equiv.swap this other) rfl (fun _ _ => Iff.rfl)
    (fun a => h.given_eq (Equiv.swap this other a))

/-- Assignment gives the wrapper the new functor, and the temporary deletes the old one. -/
lemma Holds.assign (h : Holds s t) (hthis : Lives s this) (htmp : s.wrappers tmp = none)
    (hc : s.wrappers c = none) (hne : c ≠ tmp) (himpl : s.heap impl = none) :
    ∃ s', HeapAllocationFunctionWrapper.assign this tmp c impl f s = some s' ∧
      Holds s' (t.construct this (some f)) := by
  obtain ⟨s₁, h₁, hs₁, hwrappers⟩ := @Holds.construct s t tmp impl f h htmp himpl
  have hthis₁ : Lives s₁ this := by
    unfold Lives
    rw [hwrappers, Function.update_of_ne (ne_of_lives htmp hthis)]
    exact hthis
  have htmp₁ : Lives s₁ tmp := by
    unfold Lives
    rw [hwrappers, Function.update_self]
    rfl
  have hc₁ : s₁.wrappers c = none := by
    rw [hwrappers, Function.update_of_ne hne, hc]
  have hgiven : GivenState.destroy (t.construct tmp (some f) ∘ Equiv.swap this tmp) tmp =
      t.construct this (some f) := by
    funext a
    unfold GivenState.destroy GivenState.construct
    by_cases ha : a = tmp
    · rw [ha, Function.update_self, Function.update_of_ne (ne_of_lives htmp hthis).symm, h.given_eq,
        htmp]
      rfl
    · rw [Function.update_of_ne ha, Function.comp_apply]
      by_cases ha' : a = this
      · rw [ha', Equiv.swap_apply_left, Function.update_self, Function.update_self]
      · rw [Equiv.swap_apply_of_ne_of_ne ha' ha, Function.update_of_ne ha, Function.update_of_ne ha']
  have hs₂ := hs₁.swap this tmp
  refine ⟨_, ?_, hgiven ▸ hs₂.destroyed tmp⟩
  unfold HeapAllocationFunctionWrapper.assign
  rw [h₁, Option.bind_eq_bind, Option.bind_some, swap_eq hthis₁ htmp₁ hc₁]
  exact hs₂.destroy_eq tmp

/-- Every enabled step has a result, and keeps the heap and what is given together. -/
lemma Holds.step {e : HeapEvent} (h : Holds s t) (he : e.Enabled s) :
    ∃ s', e.exec s = some s' ∧ Holds s' (t.after e) := by
  cases e with
  | constructDefault this => exact ⟨_, rfl, h.constructDefault he⟩
  | construct this impl iFunctor =>
    obtain ⟨s', hexec, hs', -⟩ := @Holds.construct s t this impl iFunctor h he.1 he.2
    exact ⟨s', hexec, hs'⟩
  | assign this tmp c impl iFunction =>
    obtain ⟨hthis, htmp, hc, hne, himpl⟩ := he
    exact h.assign hthis htmp hc hne himpl
  | moveConstruct this other => exact ⟨_, rfl, h.moveConstruct he.1 he.2⟩
  | moveAssign this other => exact h.moveAssign he.1 he.2
  | swap this other c =>
    obtain ⟨hthis, hother, hc⟩ := he
    exact ⟨_, swap_eq hthis hother hc, h.swap this other⟩
  | destroy this => exact ⟨_, h.destroy_eq this, h.destroyed this⟩

end Steps

section Runs

open HeapAllocationFunctionWrapper

variable {s : HeapState} {es : List HeapEvent}

end Runs

end CppBenchmark
