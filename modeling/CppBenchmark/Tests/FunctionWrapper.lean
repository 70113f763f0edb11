import CppBenchmark.Foundation.ByteMemory
import CppBenchmark.Foundation.Transition

/-!
# Type erasure in a fixed buffer

A `StackAllocationFunctionWrapper` places a `FunctionWrapperImpl` of its functor in its own
buffer and keeps a pointer to it. Assignment builds a temporary and swaps it with the
wrapper member by member, which hands over a pointer into the temporary.
-/

namespace CppBenchmark

open ByteMemory TransitionSystem

/-- The next multiple of `a`. -/
def roundUp (n a : Nat) : Nat := (n + (a - 1)) / a * a

/-- A functor: its type by the vtable of its `FunctionWrapperImpl`, and the bytes it holds,
none for an empty class. -/
structure Functor where
  sizeof : Nat
  alignof : Nat
  vtable : Nat
  state : List UInt8
  alignof_pos : 0 < alignof
  vtable_lt : vtable < 2 ^ 64
  state_le : state.length ≤ sizeof

/-- `sizeof(FunctionWrapperBaseImpl)`: the pointer to the vtable. -/
def sizeofBase : Nat := 8

namespace Functor

variable (f : Functor)

/-- Where a `FunctionWrapperImpl` has its functor: an empty base class takes no room. -/
def offset : Nat := if f.state = [] then 0 else roundUp sizeofBase f.alignof

/-- `sizeof(FunctionWrapperImpl)` -/
def implSize : Nat :=
  roundUp (if f.state = [] then sizeofBase else f.offset + f.state.length) (max 8 f.alignof)

/-- Constructs the `FunctionWrapperImpl` at `p`. -/
def place (p : Nat) (m : Memory) : Memory :=
  (m.writeLE p 8 f.vtable).write (p + f.offset) f.state

/-- At `p` there is a `FunctionWrapperImpl` whose `Invoke` runs the functor. -/
structure PlacedAt (m : Memory) (p : Nat) : Prop where
  vtable : m.readLE p 8 = f.vtable
  state : m.read (p + f.offset) f.state.length = f.state

end Functor

namespace StackAllocationFunctionWrapper

variable (BufferSize : Nat)

/-- The size of `m_Buffer`. -/
def bufferLength : Nat := BufferSize + sizeofBase

/-- Where `m_Pointer` is. -/
def pointerOffset : Nat := roundUp (bufferLength BufferSize) 8

def sizeofWrapper : Nat := pointerOffset BufferSize + 8

def pointer (m : Memory) (this : Nat) : Nat := m.readLE (this + pointerOffset BufferSize) 8

def setPointer (this p : Nat) (m : Memory) : Memory :=
  m.writeLE (this + pointerOffset BufferSize) 8 p

/-- The members of a wrapper, as a memberwise move copies them. -/
structure Members where
  buffer : List UInt8
  pointer : Nat

def load (m : Memory) (this : Nat) : Members :=
  ⟨m.read this (bufferLength BufferSize), pointer BufferSize m this⟩

def store (this : Nat) (members : Members) (m : Memory) : Memory :=
  setPointer BufferSize this members.pointer (m.write this members.buffer)

def constructDefault (this : Nat) (m : Memory) : Memory :=
  setPointer BufferSize this 0 (m.write this (List.replicate (bufferLength BufferSize) 0))

def construct (this : Nat) (iFunctor : Functor) (m : Memory) : Memory :=
  setPointer BufferSize this this (iFunctor.place this m)

/-- `std::swap` by memberwise moves. -/
def swap (this other : Nat) (m : Memory) : Memory :=
  let tmp := load BufferSize m this
  let m := store BufferSize this (load BufferSize m other) m
  store BufferSize other tmp m

/-- `operator=`, with its temporary at `tmp`. -/
def assign (this tmp : Nat) (iFunction : Functor) (m : Memory) : Memory :=
  swap BufferSize this tmp (construct BufferSize tmp iFunction m)

end StackAllocationFunctionWrapper

open StackAllocationFunctionWrapper

/-- The memory, the live wrappers by their addresses, and the functor last given to each. -/
structure WrapperState where
  memory : Memory
  live : List Nat
  given : Nat → Option Functor

inductive WrapperEvent
  | constructDefault (this : Nat)
  | construct (this : Nat) (iFunctor : Functor)
  | assign (this tmp : Nat) (iFunction : Functor)
  | destroy (this : Nat)

section Runs

variable (BufferSize : Nat)

/-- Two wrappers have no byte in common. -/
def Apart (a b : Nat) : Prop :=
  a + sizeofWrapper BufferSize ≤ b ∨ b + sizeofWrapper BufferSize ≤ a

instance (a b : Nat) : Decidable (Apart BufferSize a b) :=
  inferInstanceAs (Decidable (_ ∨ _))

/-- Storage for a new wrapper. -/
structure FreeStorage (live : List Nat) (a : Nat) : Prop where
  pos : 0 < a
  lt : a + sizeofWrapper BufferSize ≤ 2 ^ 64
  apart : ∀ b ∈ live, Apart BufferSize a b

/-- The steps of any number of wrappers; functors pass the assertion on their size. -/
inductive WrapperStep : WrapperState → WrapperEvent → WrapperState → Prop
  | constructDefault {s : WrapperState} (this : Nat) (hfree : FreeStorage BufferSize s.live this) :
    WrapperStep s (.constructDefault this)
      ⟨StackAllocationFunctionWrapper.constructDefault BufferSize this s.memory, this :: s.live,
        Function.update s.given this none⟩
  | construct {s : WrapperState} (this : Nat) (iFunctor : Functor)
      (hfree : FreeStorage BufferSize s.live this) (hassert : iFunctor.sizeof ≤ BufferSize) :
    WrapperStep s (.construct this iFunctor)
      ⟨StackAllocationFunctionWrapper.construct BufferSize this iFunctor s.memory, this :: s.live,
        Function.update s.given this (some iFunctor)⟩
  | assign {s : WrapperState} (this tmp : Nat) (iFunction : Functor) (hlive : this ∈ s.live)
      (hfree : FreeStorage BufferSize s.live tmp) (hassert : iFunction.sizeof ≤ BufferSize) :
    WrapperStep s (.assign this tmp iFunction)
      ⟨StackAllocationFunctionWrapper.assign BufferSize this tmp iFunction s.memory, s.live,
        Function.update s.given this (some iFunction)⟩
  | destroy {s : WrapperState} (this : Nat) (hlive : this ∈ s.live) :
    WrapperStep s (.destroy this) ⟨s.memory, s.live.erase this, s.given⟩

def wrapperSystem : TransitionSystem WrapperState WrapperEvent where
  init s := s.live = []
  step := WrapperStep BufferSize

/-- The wrapper was given no functor and its pointer is null, or the pointer is the address
of a `FunctionWrapperImpl` wholly inside its own buffer that runs the functor last given. -/
def OwnsFunctor (s : WrapperState) (this : Nat) : Prop :=
  (pointer BufferSize s.memory this = 0 ∧ s.given this = none) ∨
    ∃ f, s.given this = some f ∧ f.PlacedAt s.memory (pointer BufferSize s.memory this) ∧
      this ≤ pointer BufferSize s.memory this ∧
      pointer BufferSize s.memory this + f.implSize ≤ this + bufferLength BufferSize

def AllOwn (s : WrapperState) : Prop := ∀ this ∈ s.live, OwnsFunctor BufferSize s this

/-- Functors are given at construction only, and with the pointer to the vtable and the
padding they fit into the buffer. -/
def Fitting : WrapperEvent → Prop
  | .construct _ iFunctor => iFunctor.implSize ≤ bufferLength BufferSize
  | .assign _ _ _ => False
  | _ => True

end Runs

section Layout

variable {BufferSize this other p x : Nat} {f : Functor} {m m' : Memory}

lemma le_roundUp {n a : Nat} (ha : 0 < a) : n ≤ roundUp n a := by
  have hdiv := Nat.div_add_mod (n + (a - 1)) a
  have hmod := Nat.mod_lt (n + (a - 1)) ha
  rw [Nat.mul_comm] at hdiv
  unfold roundUp
  omega

namespace Functor

lemma le_implSize (f : Functor) :
    sizeofBase ≤ f.implSize ∧ f.offset + f.state.length ≤ f.implSize := by
  have halign : 0 < max 8 f.alignof := by omega
  have hsize : (if f.state = [] then sizeofBase else f.offset + f.state.length) ≤ f.implSize :=
    le_roundUp halign
  have hoffset : sizeofBase ≤ roundUp sizeofBase f.alignof := le_roundUp f.alignof_pos
  by_cases hempty : f.state = []
  · rw [if_pos hempty] at hsize
    simpa [offset, hempty] using hsize
  · rw [if_neg hempty] at hsize
    refine ⟨?_, hsize⟩
    rw [offset, if_neg hempty] at hsize
    omega

/-- The functor does not overlap the pointer to the vtable. -/
lemma apart_vtable (f : Functor) (p : Nat) :
    p + 8 ≤ p + f.offset ∨ p + f.offset + f.state.length ≤ p := by
  have hoffset : sizeofBase ≤ roundUp sizeofBase f.alignof := le_roundUp f.alignof_pos
  by_cases hempty : f.state = []
  · right
    simp [offset, hempty]
  · left
    rw [offset, if_neg hempty]
    unfold sizeofBase at hoffset ⊢
    omega

lemma place_outside (h : x < p ∨ p + f.implSize ≤ x) : f.place p m x = m x := by
  obtain ⟨hbase, hstate⟩ := f.le_implSize
  unfold sizeofBase at hbase
  rw [place, Memory.write_outside _ (by omega), Memory.writeLE_outside _ (by omega)]

lemma placedAt_place (f : Functor) (p : Nat) (m : Memory) : f.PlacedAt (f.place p m) p where
  vtable := by
    rw [place, Memory.readLE, Memory.read_write_disjoint _ (f.apart_vtable p), ← Memory.readLE,
      Memory.readLE_writeLE]
    exact Nat.mod_eq_of_lt f.vtable_lt
  state := Memory.read_write _ _ _

lemma PlacedAt.congr (h : f.PlacedAt m p) (hm : ∀ x, p ≤ x → x < p + f.implSize → m' x = m x) :
    f.PlacedAt m' p := by
  obtain ⟨hbase, hstate⟩ := f.le_implSize
  unfold sizeofBase at hbase
  refine ⟨?_, ?_⟩
  · rw [Memory.readLE_congr (fun x hx hlt => hm x hx (by omega))]
    exact h.vtable
  · rw [Memory.read_congr (fun x hx hlt => hm x (by omega) (by omega))]
    exact h.state

end Functor

namespace StackAllocationFunctionWrapper

lemma bufferLength_le : bufferLength BufferSize ≤ pointerOffset BufferSize :=
  le_roundUp (by norm_num)

lemma pointer_setPointer (hp : p < 2 ^ 64) :
    pointer BufferSize (setPointer BufferSize this p m) this = p := by
  rw [pointer, setPointer, Memory.readLE_writeLE]
  exact Nat.mod_eq_of_lt hp

lemma setPointer_buffer (hx : x < this + pointerOffset BufferSize) :
    setPointer BufferSize this p m x = m x :=
  Memory.writeLE_outside m (Or.inl hx)

lemma setPointer_outside (hx : x < this ∨ this + sizeofWrapper BufferSize ≤ x) :
    setPointer BufferSize this p m x = m x := by
  apply Memory.writeLE_outside
  unfold sizeofWrapper at hx
  omega

lemma pointer_congr (hm : ∀ x, this ≤ x → x < this + sizeofWrapper BufferSize → m' x = m x) :
    pointer BufferSize m' this = pointer BufferSize m this := by
  apply Memory.readLE_congr
  intro x hx hlt
  apply hm x (by omega)
  unfold sizeofWrapper
  omega

lemma constructDefault_outside (hx : x < this ∨ this + sizeofWrapper BufferSize ≤ x) :
    constructDefault BufferSize this m x = m x := by
  have hle := @bufferLength_le BufferSize
  rw [constructDefault, setPointer_outside hx]
  apply Memory.write_outside
  unfold sizeofWrapper at hx
  rw [List.length_replicate]
  omega

lemma construct_outside (hfits : f.implSize ≤ bufferLength BufferSize)
    (hx : x < this ∨ this + sizeofWrapper BufferSize ≤ x) :
    construct BufferSize this f m x = m x := by
  have hle := @bufferLength_le BufferSize
  rw [construct, setPointer_outside hx]
  apply Functor.place_outside
  unfold sizeofWrapper at hx
  omega

lemma store_outside {members : Members} (hlength : members.buffer.length = bufferLength BufferSize)
    (hx : x < this ∨ this + sizeofWrapper BufferSize ≤ x) :
    store BufferSize this members m x = m x := by
  have hle := @bufferLength_le BufferSize
  rw [store, setPointer_outside hx]
  apply Memory.write_outside
  unfold sizeofWrapper at hx
  omega

/-- A wrapper that was assigned to points into the temporary. -/
lemma pointer_assign (hother : other < 2 ^ 64) (hapart : Apart BufferSize this other) :
    pointer BufferSize (assign BufferSize this other f m) this = other := by
  have houtside : ∀ x, this ≤ x → x < this + sizeofWrapper BufferSize →
      x < other ∨ other + sizeofWrapper BufferSize ≤ x := by
    intro x hx hlt
    unfold Apart at hapart
    omega
  have hlength : ∀ m, (load BufferSize m this).buffer.length = bufferLength BufferSize :=
    fun m => Memory.read_length m _ _
  unfold assign swap
  rw [pointer_congr (fun x hx hlt => store_outside (hlength _) (houtside x hx hlt))]
  have hpointer : (load BufferSize (construct BufferSize other f m) other).pointer = other :=
    pointer_setPointer hother
  rw [store, hpointer]
  exact pointer_setPointer hother

end StackAllocationFunctionWrapper

end Layout

section Ownership

variable {BufferSize : Nat} {s s' : WrapperState} {e : WrapperEvent} {es : List WrapperEvent}
  {this other : Nat}

/-- Ownership depends on the bytes of the wrapper only. -/
lemma OwnsFunctor.congr (h : OwnsFunctor BufferSize s this) (hgiven : s'.given this = s.given this)
    (hm : ∀ x, this ≤ x → x < this + sizeofWrapper BufferSize → s'.memory x = s.memory x) :
    OwnsFunctor BufferSize s' this := by
  have hle := @bufferLength_le BufferSize
  unfold OwnsFunctor
  rw [pointer_congr hm, hgiven]
  rcases h with hnull | ⟨f, hf, hplaced, hstart, hend⟩
  · exact Or.inl hnull
  · right
    refine ⟨f, hf, hplaced.congr ?_, hstart, hend⟩
    intro x hx hlt
    apply hm x (by omega)
    unfold sizeofWrapper
    omega

lemma apart_of_mem (hother : Apart BufferSize this other) :
    other ≠ this ∧ ∀ x, other ≤ x → x < other + sizeofWrapper BufferSize →
      x < this ∨ this + sizeofWrapper BufferSize ≤ x := by
  have hpos : 0 < sizeofWrapper BufferSize := Nat.succ_pos _
  unfold Apart at hother
  refine ⟨by omega, ?_⟩
  intro x hx hlt
  omega

/-- A new wrapper whose construction writes its own bytes only leaves the others alone. -/
lemma AllOwn.cons {memory : Memory} {given : Option Functor} (h : AllOwn BufferSize s)
    (hfree : FreeStorage BufferSize s.live this)
    (hframe : ∀ x, x < this ∨ this + sizeofWrapper BufferSize ≤ x → memory x = s.memory x)
    (hthis : OwnsFunctor BufferSize
      ⟨memory, this :: s.live, Function.update s.given this given⟩ this) :
    AllOwn BufferSize ⟨memory, this :: s.live, Function.update s.given this given⟩ := by
  intro other hother
  rcases List.mem_cons.mp hother with rfl | hother
  · exact hthis
  · obtain ⟨hne, houtside⟩ := apart_of_mem (hfree.apart other hother)
    apply (h other hother).congr
    · exact Function.update_of_ne hne _ _
    · exact fun x hx hlt => hframe x (houtside x hx hlt)

lemma owns_constructDefault {given : Nat → Option Functor} {live : List Nat} (m : Memory)
    (hgiven : given this = none) :
    OwnsFunctor BufferSize ⟨constructDefault BufferSize this m, live, given⟩ this :=
  Or.inl ⟨pointer_setPointer (by norm_num), hgiven⟩

/-- A wrapper constructed from a functor owns it exactly when it fits into the buffer. -/
lemma owns_construct_iff {given : Nat → Option Functor} {live : List Nat} {f : Functor} (m : Memory)
    (hthis : 0 < this ∧ this < 2 ^ 64) (hgiven : given this = some f) :
    OwnsFunctor BufferSize ⟨construct BufferSize this f m, live, given⟩ this ↔
      f.implSize ≤ bufferLength BufferSize := by
  have hle := @bufferLength_le BufferSize
  have hpointer : pointer BufferSize (construct BufferSize this f m) this = this :=
    pointer_setPointer hthis.2
  unfold OwnsFunctor
  dsimp only
  rw [hpointer, hgiven]
  constructor
  · rintro (⟨hnull, -⟩ | ⟨f', hf', -, -, hend⟩)
    · omega
    · obtain rfl := Option.some.inj hf'
      omega
  · intro hfits
    right
    refine ⟨f, rfl, ?_, le_rfl, by omega⟩
    apply (f.placedAt_place this m).congr
    intro x hx hlt
    exact setPointer_buffer (by omega)

/-- A wrapper that was assigned to does not own its functor. -/
lemma not_owns_assign {given : Nat → Option Functor} {live : List Nat} {f : Functor} (m : Memory)
    (hother : 0 < other ∧ other < 2 ^ 64) (hapart : Apart BufferSize this other) :
    ¬OwnsFunctor BufferSize ⟨assign BufferSize this other f m, live, given⟩ this := by
  have hle := @bufferLength_le BufferSize
  unfold OwnsFunctor
  rw [pointer_assign hother.2 hapart]
  rintro (⟨hnull, -⟩ | ⟨f', -, -, hstart, hend⟩)
  · omega
  · unfold Apart sizeofWrapper at hapart
    omega

/-- The live wrappers lie in storage of their own. -/
structure WellPlaced (BufferSize : Nat) (live : List Nat) : Prop where
  apart : live.Pairwise (Apart BufferSize)
  storage : ∀ this ∈ live, 0 < this ∧ this + sizeofWrapper BufferSize ≤ 2 ^ 64

lemma WellPlaced.cons {live : List Nat} (h : WellPlaced BufferSize live)
    (hfree : FreeStorage BufferSize live this) : WellPlaced BufferSize (this :: live) := by
  refine ⟨List.pairwise_cons.mpr ⟨hfree.apart, h.apart⟩, ?_⟩
  intro other hother
  rcases List.mem_cons.mp hother with rfl | hother
  · exact ⟨hfree.pos, hfree.lt⟩
  · exact h.storage other hother

lemma WrapperStep.wellPlaced (hstep : WrapperStep BufferSize s e s')
    (h : WellPlaced BufferSize s.live) : WellPlaced BufferSize s'.live := by
  cases hstep with
  | constructDefault this hfree => exact h.cons hfree
  | construct this iFunctor hfree hassert => exact h.cons hfree
  | assign this tmp iFunction hlive hfree hassert => exact h
  | destroy this hlive =>
    exact ⟨h.apart.sublist List.erase_sublist,
      fun other hother => h.storage other (List.mem_of_mem_erase hother)⟩

/-- In every reachable state the live wrappers lie apart. -/
theorem wrappers_wellPlaced (hrun : (wrapperSystem BufferSize).Run es s) :
    WellPlaced BufferSize s.live := by
  apply hrun.invariant (P := fun s => WellPlaced BufferSize s.live)
  · intro s hlive
    rw [hlive]
    exact ⟨List.Pairwise.nil, fun this hthis => absurd hthis List.not_mem_nil⟩
  · intro s e s' hs hstep
    exact WrapperStep.wellPlaced hstep hs

lemma FreeStorage.lt_two_pow {live : List Nat} (hfree : FreeStorage BufferSize live this) :
    0 < this ∧ this < 2 ^ 64 := by
  have hlt := hfree.lt
  unfold sizeofWrapper at hlt
  exact ⟨hfree.pos, by omega⟩

/-- A step from a state in which every wrapper owns its functor leads to such a state
exactly when it is a fitting one. -/
lemma WrapperStep.allOwn_iff (hstep : WrapperStep BufferSize s e s') (h : AllOwn BufferSize s) :
    AllOwn BufferSize s' ↔ Fitting BufferSize e := by
  cases hstep with
  | constructDefault this hfree =>
    refine iff_of_true ?_ trivial
    apply h.cons hfree (fun x hx => constructDefault_outside hx)
    exact owns_constructDefault s.memory (Function.update_self this none s.given)
  | construct this iFunctor hfree hassert =>
    have hthis := @owns_construct_iff BufferSize this
      (Function.update s.given this (some iFunctor)) (this :: s.live) iFunctor s.memory
      hfree.lt_two_pow (Function.update_self this _ s.given)
    constructor
    · exact fun hall => hthis.mp (hall this List.mem_cons_self)
    · intro hfits
      exact h.cons hfree (fun x hx => construct_outside hfits hx) (hthis.mpr hfits)
  | assign this tmp iFunction hlive hfree hassert =>
    refine iff_of_false ?_ id
    intro hall
    have hapart : Apart BufferSize this tmp := Or.symm (hfree.apart this hlive)
    exact not_owns_assign s.memory hfree.lt_two_pow hapart (hall this hlive)
  | destroy this hlive =>
    refine iff_of_true ?_ trivial
    intro other hother
    exact (h other (List.mem_of_mem_erase hother)).congr rfl (fun _ _ _ => rfl)

/-- In all states that a run passes through every live wrapper owns its functor exactly when
no step of the run assigns a functor, or constructs a wrapper from one that does not fit. -/
theorem wrappers_own_iff {ss : List WrapperState} (hpath : (wrapperSystem BufferSize).Path es ss) :
    (∀ s ∈ ss, AllOwn BufferSize s) ↔ ∀ e ∈ es, Fitting BufferSize e := by
  apply hpath.forall_iff
  · intro s hlive this hthis
    rw [hlive] at hthis
    cases hthis
  · exact fun s e s' hall hstep => WrapperStep.allOwn_iff hstep hall

/-- A lambda that captures one reference. -/
def referenceLambda : Functor where
  sizeof := 8
  alignof := 8
  vtable := 0x400000
  state := toBytesLE 8 0x7ff0
  alignof_pos := by decide
  vtable_lt := by decide
  state_le := by decide

def emptyState : WrapperState := ⟨fun _ => 0, [], fun _ => none⟩

/-- Three wrappers, of which one is empty and destroyed. -/
theorem wrappers_own_three : ∃ ss, (wrapperSystem 16).Path [.destroy 8192,
      .construct 12288 referenceLambda, .constructDefault 8192, .construct 4096 referenceLambda] ss ∧
    ∀ s ∈ ss, AllOwn 16 s := by
  have hpath := TransitionSystem.Path.step (.step (.step (.step
    (.init (T := wrapperSystem 16) (s := emptyState) rfl)
    (.construct 4096 referenceLambda ⟨by decide, by decide, by decide⟩ (by decide)))
    (.constructDefault 8192 ⟨by decide, by decide, by decide⟩))
    (.construct 12288 referenceLambda ⟨by decide, by decide, by decide⟩ (by decide)))
    (.destroy 8192 (by decide))
  refine ⟨_, hpath, (wrappers_own_iff hpath).mpr ?_⟩
  have hfits : referenceLambda.implSize ≤ bufferLength 16 := by decide
  simp only [List.forall_mem_cons]
  exact ⟨trivial, hfits, trivial, hfits, fun _ he => absurd he List.not_mem_nil⟩

/-- A wrapper with 16 bytes for the functor is assigned the lambda: its pointer is left
behind in the temporary. -/
theorem assigned_wrapper_points_to_temporary :
    ¬∀ es s, (wrapperSystem 16).Run es s → AllOwn 16 s := by
  intro hall
  have hrun : (wrapperSystem 16).Run
      [.assign 4096 8192 referenceLambda, .constructDefault 4096] _ :=
    .step (.step (.init (s := emptyState) rfl)
      (.constructDefault 4096 ⟨by decide, by decide, by decide⟩))
      (.assign 4096 8192 referenceLambda List.mem_cons_self ⟨by decide, by decide, by decide⟩
        (by decide))
  exact not_owns_assign _ (by norm_num) (Or.inl (by decide))
    (hall _ _ hrun 4096 List.mem_cons_self)

end Ownership

end CppBenchmark
