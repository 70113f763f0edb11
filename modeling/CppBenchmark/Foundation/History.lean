import Mathlib.Data.List.Induction
import Mathlib.Tactic.Lemma

/-!
# The most recent entry of a history

Entries of a history carry a key. The most recent entry for a key is what a table holds
that each entry overwrites at its key.
-/

namespace History

variable {α κ : Type*} [DecidableEq κ] {key : α → κ} {history : List α} {k : κ} {a : α}

/-- The last entry of a history with the given key. -/
def mostRecent (key : α → κ) (history : List α) (k : κ) : Option α :=
  (history.filter (fun a => key a = k)).getLast?

@[simp] lemma mostRecent_nil : mostRecent key [] k = none := rfl

lemma mostRecent_concat : mostRecent key (history ++ [a]) k =
    if key a = k then some a else mostRecent key history k := by
  by_cases h : key a = k <;> simp [mostRecent, List.filter_append, h]

lemma mostRecent_map {β : Type*} (f : β → α) (history : List β) :
    mostRecent key (history.map f) k = (mostRecent (fun b => key (f b)) history k).map f := by
  rw [mostRecent, List.filter_map, List.getLast?_map]
  rfl

/-- Entries with other keys after it and earlier entries have no influence. -/
lemma mostRecent_eq_some_iff : mostRecent key history k = some a ↔
    ∃ before after, history = before ++ a :: after ∧ key a = k ∧ ∀ b ∈ after, key b ≠ k := by
  induction history using List.reverseRecOn with
  | nil => simp
  | append_singleton history b ih =>
    rw [mostRecent_concat]
    by_cases hb : key b = k
    · rw [if_pos hb, Option.some_inj]
      constructor
      · rintro rfl
        exact ⟨history, [], rfl, hb, by simp⟩
      · rintro ⟨before, after, hsplit, -, hafter⟩
        rcases List.eq_nil_or_concat after with rfl | ⟨after, c, rfl⟩
        · exact (List.cons.inj (List.append_inj' hsplit rfl).2).1
        · rw [List.concat_eq_append, ← List.cons_append, ← List.append_assoc] at hsplit
          obtain rfl := (List.cons.inj (List.append_inj' hsplit rfl).2).1
          exact absurd hb (hafter b (by simp))
    · rw [if_neg hb, ih]
      constructor
      · rintro ⟨before, after, rfl, ha, hafter⟩
        refine ⟨before, after ++ [b], by simp, ha, ?_⟩
        intro c hc
        rcases List.mem_append.mp hc with hc | hc
        · exact hafter c hc
        · rwa [List.mem_singleton.mp hc]
      · rintro ⟨before, after, hsplit, ha, hafter⟩
        rcases List.eq_nil_or_concat after with rfl | ⟨after, c, rfl⟩
        · obtain rfl := (List.cons.inj (List.append_inj' hsplit rfl).2).1
          exact absurd ha hb
        · rw [List.concat_eq_append, ← List.cons_append, ← List.append_assoc] at hsplit
          exact ⟨before, after, (List.append_inj' hsplit rfl).1, ha,
            fun c' hc' => hafter c' (by simp [hc'])⟩

end History
