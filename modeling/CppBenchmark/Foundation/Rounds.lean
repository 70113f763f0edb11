import Mathlib.Algebra.Order.Group.Nat
import Mathlib.Data.List.Basic
import Mathlib.Data.List.Perm.Basic
import Mathlib.Data.Option.Basic
import Mathlib.Tactic.Lemma
import Mathlib.Tactic.TypeStar

/-!
# Rounds over a list

An index that starts again at the front when it reaches the end. After any number of steps
it is the number of steps modulo the length, so whole rounds meet the elements in order.
-/

namespace Rounds

variable {α : Type*} {size : Nat}

/-- The index after one step. -/
def next (size i : Nat) : Nat := if size = i + 1 then 0 else i + 1

lemma next_mod (hsize : 0 < size) (t : Nat) : next size (t % size) = (t + 1) % size := by
  have hlt : t % size < size := Nat.mod_lt t hsize
  rw [next, Nat.add_mod t 1 size]
  by_cases hend : size = t % size + 1
  · rw [if_pos hend]
    rcases Nat.lt_or_ge 1 size with hone | hone
    · rw [Nat.mod_eq_of_lt hone, ← hend, Nat.mod_self]
    · obtain rfl : size = 1 := Nat.le_antisymm hone hsize
      rw [Nat.mod_one]
  · rw [if_neg hend]
    have hone : 1 < size := by omega
    have hlast : t % size + 1 < size := by omega
    rw [Nat.mod_eq_of_lt hone, Nat.mod_eq_of_lt hlast]

lemma map_getElem?_range (data : List α) :
    (List.range data.length).map (fun i => data[i]?) = data.map some := by
  apply List.ext_getElem
  · rw [List.length_map, List.length_range, List.length_map]
  · intro i hi hi'
    rw [List.getElem_map, List.getElem_map, List.getElem_range, List.getElem?_eq_getElem]

/-- The elements met in one round. -/
lemma map_round (data : List α) (k : Nat) :
    (List.range data.length).map (fun i => data[(k * data.length + i) % data.length]?) =
      data.map some := by
  rw [← map_getElem?_range]
  apply List.map_congr_left
  intro i hi
  rw [Nat.add_comm, Nat.add_mul_mod_self_right, Nat.mod_eq_of_lt (List.mem_range.mp hi)]

/-- The elements met in a number of rounds. -/
lemma map_rounds (data : List α) (k : Nat) :
    (List.range (k * data.length)).map (fun i => data[i % data.length]?) =
      (List.replicate k data).flatten.map some := by
  induction k with
  | zero => rw [Nat.zero_mul, List.range_zero, List.replicate_zero]; rfl
  | succ k ih =>
    rw [Nat.succ_mul, List.range_add, List.map_append, ih, List.map_map, List.replicate_succ',
      List.flatten_append, List.flatten_singleton, List.map_append, List.append_cancel_left_eq]
    exact map_round data k

section Found

variable {β : Type*} {f : α → Option β}

lemma exists_eq_map_some {l : List (Option β)} {bs : List β} (h : l.Perm (bs.map some)) :
    ∃ found : List β, found.Perm bs ∧ l = found.map some := by
  have hl : l = (l.filterMap id).map some := by
    rw [List.map_filterMap_some_eq_filter_map_isSome, List.map_id]
    symm
    rw [List.filter_eq_self]
    intro b hb
    obtain ⟨b, -, rfl⟩ := List.mem_map.mp (h.mem_iff.mp hb)
    rfl
  refine ⟨l.filterMap id, ?_, hl⟩
  rw [hl] at h
  exact (List.map_perm_map_iff (Option.some_injective β)).mp h

/-- What a partial function finds at an index, where it finds something for every element. -/
lemma getElem?_bind_eq {data : List α} {found : List β} (h : data.map f = found.map some)
    (i : Nat) : data[i]?.bind f = found[i]? := by
  have hi : (data[i]?.map f).bind id = (found[i]?.map some).bind id := by
    rw [← List.getElem?_map, h, List.getElem?_map]
  rw [Option.bind_map, Option.bind_map] at hi
  exact hi.trans (Option.bind_fun_some _)

end Found

end Rounds
