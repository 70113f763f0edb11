import Mathlib.Algebra.Order.BigOperators.Group.List
import Mathlib.Data.Int.CardIntervalMod
import Mathlib.Data.List.ProdSigma
import Mathlib.Logic.Function.Iterate
import Mathlib.Tactic.Cases

/-!
# Cells changed in place

A loop that changes one cell of a store at a time leaves in each cell what its changes make
of it, as often as the loop meets the cell. The order in which it meets the cells does not
matter.
-/

namespace CellUpdates

/-- A store is determined by its shape and its cells, and writing a cell changes no other. -/
structure CellStore (σ κ α τ : Type*) where
  get : σ → κ → Option α
  set : σ → κ → α → σ
  shape : σ → τ
  get_set_self : ∀ s k a, (get s k).isSome → get (set s k a) k = some a
  get_set_of_ne : ∀ s k l a, k ≠ l → get (set s k a) l = get s l
  shape_set : ∀ s k a, shape (set s k a) = shape s
  ext : ∀ s t, shape s = shape t → (∀ k, get s k = get t k) → s = t

namespace CellStore

variable {σ κ α τ : Type*} (store : CellStore σ κ α τ) (f : κ → α → α)

/-- One cell changed in place, if it exists. -/
def modify (s : σ) (k : κ) : Option σ := (store.get s k).map (fun a => store.set s k (f k a))

def modifyAll (ks : List κ) (s : σ) : Option σ := ks.foldlM (store.modify f) s

lemma modifyAll_append (ks ls : List κ) (s : σ) :
    store.modifyAll f (ks ++ ls) s = (store.modifyAll f ks s).bind (store.modifyAll f ls) :=
  List.foldlM_append

/-- A loop of loops is one loop. -/
lemma modifyAll_flatMap {ι : Type*} (l : List ι) (ks : ι → List κ) (s : σ) :
    store.modifyAll f (l.flatMap ks) s = l.foldlM (fun s i => store.modifyAll f (ks i) s) s := by
  induction l generalizing s with
  | nil => rfl
  | cons i l ih =>
    rw [List.flatMap_cons, modifyAll_append, List.foldlM_cons]
    exact congrArg (Option.bind _) (funext ih)

/-- A loop that is run `n` times meets each cell `n` times as often. -/
lemma count_repeated [BEq κ] (n : Nat) (ks : List κ) (k : κ) :
    ((List.range n).flatMap (fun _ => ks)).count k = n * ks.count k := by
  rw [List.count_flatMap]
  simp [Function.comp_def]

section Counts

variable [BEq κ] [LawfulBEq κ] {store} {f} {s : σ}

lemma get_modify (f : κ → α → α) {k : κ} {a : α} (h : store.get s k = some a) (l : κ) :
    store.get (store.set s k (f k a)) l = (store.get s l).map ((f l)^[[k].count l]) := by
  by_cases hkl : k = l
  · subst hkl
    rw [store.get_set_self s k _ (Option.isSome_of_eq_some h), h, List.count_singleton_self]
    rfl
  · rw [store.get_set_of_ne s k l _ hkl, List.count_eq_zero_of_not_mem (by simpa using Ne.symm hkl),
      Function.iterate_zero, Option.map_id]
    rfl

/-- A loop over cells that exist changes each as often as it meets it. -/
theorem exists_modifyAll (store : CellStore σ κ α τ) (f : κ → α → α) (ks : List κ) (s : σ)
    (h : ∀ k ∈ ks, (store.get s k).isSome) :
    ∃ t, store.modifyAll f ks s = some t ∧ store.shape t = store.shape s ∧
      ∀ l, store.get t l = (store.get s l).map ((f l)^[ks.count l]) := by
  induction ks generalizing s with
  | nil =>
    refine ⟨s, rfl, rfl, fun l => ?_⟩
    rw [List.count_nil, Function.iterate_zero, Option.map_id]
    rfl
  | cons k ks ih =>
    rw [List.forall_mem_cons] at h
    obtain ⟨a, ha⟩ := Option.isSome_iff_exists.mp h.1
    have hget := get_modify f ha
    have hrest : ∀ l ∈ ks, (store.get (store.set s k (f k a)) l).isSome := by
      intro l hl
      rw [hget, Option.isSome_map]
      exact h.2 l hl
    obtain ⟨t, hrun, hshape, hcells⟩ := ih _ hrest
    refine ⟨t, ?_, hshape.trans (store.shape_set s k _), fun l => ?_⟩
    · rw [modifyAll, List.foldlM_cons, modify, ha]
      exact hrun
    · rw [hcells, hget, Option.map_map, ← Function.iterate_add, Nat.add_comm, ← List.count_append]
      rfl

end Counts

/-- The elements of a list. -/
def vector (α : Type*) : CellStore (List α) Nat α Nat where
  get s i := s[i]?
  set s i a := s.set i a
  shape s := s.length
  get_set_self s i a h := by
    obtain ⟨x, hx⟩ := Option.isSome_iff_exists.mp h
    exact List.getElem?_set_self (List.getElem?_eq_some_iff.mp hx).1
  get_set_of_ne s i j a h := List.getElem?_set_ne h
  shape_set s i a := List.length_set
  ext s t _ h := List.ext_getElem? h

/-- The elements of a list of lists, which may differ in length. -/
def nested (α : Type*) : CellStore (List (List α)) (Nat × Nat) α (List Nat) where
  get s k := s[k.1]?.bind (fun row => row[k.2]?)
  set s k a := s.modify k.1 (fun row => row.set k.2 a)
  shape s := s.map List.length
  get_set_self s k a h := by
    obtain ⟨x, hx⟩ := Option.isSome_iff_exists.mp h
    obtain ⟨row, hrow, hcell⟩ := Option.bind_eq_some_iff.mp hx
    rw [List.getElem?_modify_eq, hrow]
    exact List.getElem?_set_self (List.getElem?_eq_some_iff.mp hcell).1
  get_set_of_ne s k l a h := by
    by_cases hrow : k.1 = l.1
    · have hcell : k.2 ≠ l.2 := fun hcell => h (Prod.ext hrow hcell)
      rw [← hrow, List.getElem?_modify_eq]
      cases s[k.1]? with
      | none => rfl
      | some row => exact List.getElem?_set_ne hcell
    · rw [List.getElem?_modify_ne _ _ hrow]
  shape_set s k a := by
    apply List.ext_getElem?
    intro i
    rw [List.getElem?_map, List.getElem?_map]
    by_cases hi : k.1 = i
    · subst hi
      rw [List.getElem?_modify_eq]
      cases s[k.1]? with
      | none => rfl
      | some row => exact congrArg some List.length_set
    · rw [List.getElem?_modify_ne _ _ hi]
  ext s t hshape h := by
    have hlength : s.length = t.length := by simpa using congrArg List.length hshape
    apply List.ext_getElem hlength
    intro i hi hi'
    apply List.ext_getElem?
    intro j
    have hij := h (i, j)
    dsimp only at hij
    rwa [List.getElem?_eq_getElem hi, List.getElem?_eq_getElem hi'] at hij

end CellStore

section Strides

variable {size step n : Nat}

/-- Where a stride returns to the start. -/
def period (size step : Nat) : Nat := size / size.gcd step

/-- The cells that a stride meets, from the first one. -/
def stride (size step n : Nat) : List Nat := (List.range n).map (fun r => r * step % size)

lemma period_pos (hsize : 0 < size) : 0 < period size step :=
  Nat.div_pos (Nat.gcd_le_left step hsize) (Nat.gcd_pos_of_pos_left step hsize)

lemma mul_mod_eq_iff (hsize : 0 < size) (r t : Nat) :
    t * step % size = r * step % size ↔ t ≡ r [MOD period size step] := by
  constructor
  · exact fun h => Nat.ModEq.cancel_right_div_gcd hsize h
  · intro h
    have hmul : t * step ≡ r * step [MOD period size step * step] := h.mul_right' step
    apply hmul.of_dvd
    -- the size divides a period of steps
    rw [period, Nat.div_mul_right_comm (Nat.gcd_dvd_left size step)]
    exact ⟨step / size.gcd step, Nat.mul_div_assoc _ (Nat.gcd_dvd_right size step)⟩

lemma countP_range (p : Nat → Prop) [DecidablePred p] (n : Nat) :
    (List.range n).countP (fun t => decide (p t)) = Nat.count p n := by
  induction n with
  | zero => rw [Nat.count_zero]; rfl
  | succ n ih =>
    rw [List.range_succ, List.countP_append, ih, Nat.count_succ, List.countP_singleton]
    simp only [decide_eq_true_eq]

/-- The cells of a stride are met in turn. -/
theorem count_stride (hsize : 0 < size) (r : Nat) :
    (stride size step n).count (r * step % size) = n / period size step +
      if r % period size step < n % period size step then 1 else 0 := by
  rw [← Nat.count_modEq_card n (period_pos hsize) r, ← countP_range, stride, List.count_eq_countP,
    List.countP_map]
  apply List.countP_congr
  intro t _
  simp only [Function.comp_apply, beq_iff_eq, decide_eq_true_eq]
  exact mul_mod_eq_iff hsize r t

/-- Every cell of a stride is a multiple of the common divisor. -/
lemma gcd_dvd_of_mem_stride {k : Nat} (h : k ∈ stride size step n) : size.gcd step ∣ k := by
  obtain ⟨r, -, rfl⟩ := List.mem_map.mp h
  rw [Nat.dvd_mod_iff (Nat.gcd_dvd_left size step)]
  exact (Nat.gcd_dvd_right size step).mul_left r

end Strides

end CellUpdates
