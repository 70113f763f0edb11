import CppBenchmark.Foundation.Rounds
import CppBenchmark.Foundation.WhileLoop
import Mathlib.Algebra.Ring.Parity
import Mathlib.Data.Finset.Card
import Mathlib.Data.List.AList
import Mathlib.Data.Nat.Find

/-!
# The hash table benchmarks

The tables are filled with the first random keys that differ, and then looked up, or
emptied and toggled, key by key through an endless round over a shuffled vector. The hash
table is a parameter that obeys the laws of a map, and how a vector is shuffled is left open.
-/

namespace CppBenchmark

open Rounds

section HashTableT

variable {K T : Type*} [DecidableEq K]

/-- What the benchmarks use of a hash table: of a `google::dense_hash_map`, a
`ska::flat_hash_map` or a `std::unordered_map`. The laws leave out the keys that a table
reserves, those of `set_empty_key` and `set_deleted_key`, and where it keeps its elements. -/
structure HashTableT (K T : Type*) [DecidableEq K] where
  Reserved : K → Prop
  /-- The table after `iPostInitFunctor`. -/
  initialized : T
  size : T → Nat
  find : T → K → Option Nat
  /-- The table and whether the key was inserted. -/
  emplace : T → K → Nat → T × Bool
  erase : T → K → T
  clear : T → T
  /-- The keys in the order from `begin` to `end`. -/
  iteration : T → List K
  /-- What the table has become as an element of a vector. -/
  copy : Nat → T → T
  find_initialized : ∀ k, ¬Reserved k → find initialized k = none
  find_emplace : ∀ hashTable key value k, ¬Reserved key → ¬Reserved k →
    find (emplace hashTable key value).1 k =
      if k = key ∧ find hashTable key = none then some value else find hashTable k
  emplace_snd : ∀ hashTable key value, ¬Reserved key →
    ((emplace hashTable key value).2 = true ↔ find hashTable key = none)
  find_erase : ∀ hashTable key k, ¬Reserved key → ¬Reserved k →
    find (erase hashTable key) k = if k = key then none else find hashTable k
  find_clear : ∀ hashTable k, ¬Reserved k → find (clear hashTable) k = none
  find_copy : ∀ i hashTable k, ¬Reserved k → find (copy i hashTable) k = find hashTable k
  mem_iteration : ∀ hashTable k,
    k ∈ iteration hashTable ↔ ¬Reserved k ∧ find hashTable k ≠ none
  iteration_nodup : ∀ hashTable, (iteration hashTable).Nodup
  size_eq : ∀ hashTable, size hashTable = (iteration hashTable).length

/-- `std::shuffle` with the generator that it is given. -/
structure Shuffle (K : Type*) where
  shuffle : List K → List K
  shuffle_perm : ∀ keys, (shuffle keys).Perm keys

namespace HashTableT

variable {ops : HashTableT K T} {hashTable : T} {k : K}

lemma notReserved (hk : k ∈ ops.iteration hashTable) : ¬ops.Reserved k :=
  ((ops.mem_iteration hashTable k).mp hk).1

lemma iteration_copy_perm (ops : HashTableT K T) (i : Nat) (hashTable : T) :
    (ops.iteration (ops.copy i hashTable)).Perm (ops.iteration hashTable) := by
  rw [List.perm_ext_iff_of_nodup (ops.iteration_nodup _) (ops.iteration_nodup _)]
  intro k
  rw [ops.mem_iteration, ops.mem_iteration]
  apply and_congr_right
  intro hk
  rw [ops.find_copy i hashTable k hk]

end HashTableT

/-- Lists of the elements of a table that reserves some keys, the latest first. -/
abbrev Reserving (reserved : List K) :=
  { elements : AList (fun _ : K => Nat) // ∀ k ∈ elements, k ∉ reserved }

namespace Reserving

variable (reserved : List K)

def emplace (hashTable : Reserving reserved) (key : K) (value : Nat) :
    Reserving reserved × Bool :=
  if h : key ∈ reserved ∨ key ∈ hashTable.1 then (hashTable, false)
  else
    (⟨hashTable.1.insert key value, fun k hk => by
      rcases (AList.mem_insert hashTable.1).mp hk with rfl | hmem
      · exact fun hreserved => h (Or.inl hreserved)
      · exact hashTable.2 k hmem⟩, true)

def erase (hashTable : Reserving reserved) (key : K) : Reserving reserved :=
  ⟨hashTable.1.erase key, fun k hk => hashTable.2 k (AList.mem_erase.mp hk).2⟩

variable {reserved} {hashTable : Reserving reserved} {key k : K} {value : Nat}

lemma emplace_of_mem (h : key ∈ hashTable.1) :
    emplace reserved hashTable key value = (hashTable, false) := dif_pos (Or.inr h)

lemma emplace_of_notMem (hkey : key ∉ reserved) (h : key ∉ hashTable.1) :
    (emplace reserved hashTable key value).2 = true ∧
      (emplace reserved hashTable key value).1.1 = hashTable.1.insert key value := by
  have hnew : ¬(key ∈ reserved ∨ key ∈ hashTable.1) := not_or.mpr ⟨hkey, h⟩
  rw [emplace, dif_neg hnew]
  exact ⟨rfl, rfl⟩

lemma lookup_emplace (hkey : key ∉ reserved) :
    (emplace reserved hashTable key value).1.1.lookup k =
      if k = key ∧ hashTable.1.lookup key = none then some value else hashTable.1.lookup k := by
  by_cases h : key ∈ hashTable.1
  · rw [emplace_of_mem h, if_neg (fun hnew => AList.lookup_eq_none.mp hnew.2 h)]
  · rw [(emplace_of_notMem hkey h).2]
    by_cases hk : k = key
    · rw [if_pos ⟨hk, AList.lookup_eq_none.mpr h⟩, hk, AList.lookup_insert]
    · rw [if_neg (fun hnew => hk hnew.1), AList.lookup_insert_ne hk]

/-- A hash table whose elements lie in the order of their insertion. -/
def table (reserved : List K) : HashTableT K (Reserving reserved) where
  Reserved k := k ∈ reserved
  initialized := ⟨∅, fun k hk => absurd hk (AList.notMem_empty k)⟩
  size hashTable := hashTable.1.keys.length
  find hashTable k := hashTable.1.lookup k
  emplace := emplace reserved
  erase := erase reserved
  clear _ := ⟨∅, fun k hk => absurd hk (AList.notMem_empty k)⟩
  iteration hashTable := hashTable.1.keys
  copy _ hashTable := hashTable
  find_initialized k _ := AList.lookup_empty k
  find_emplace _ _ _ _ hkey _ := lookup_emplace hkey
  emplace_snd hashTable key value hkey := by
    rw [AList.lookup_eq_none]
    by_cases h : key ∈ hashTable.1
    · rw [emplace_of_mem h]
      exact iff_of_false Bool.false_ne_true (not_not_intro h)
    · exact iff_of_true (emplace_of_notMem hkey h).1 h
  find_erase hashTable key k _ _ := by
    by_cases hk : k = key
    · rw [if_pos hk, hk]
      exact AList.lookup_erase key hashTable.1
    · rw [if_neg hk]
      exact AList.lookup_erase_ne hk
  find_clear _ k _ := AList.lookup_empty k
  find_copy _ _ _ _ := rfl
  mem_iteration hashTable k := by
    rw [← AList.mem_keys, Ne, AList.lookup_eq_none, not_not]
    exact ⟨fun hk => ⟨hashTable.2 k hk, hk⟩, And.right⟩
  iteration_nodup hashTable := hashTable.1.keys_nodup
  size_eq _ := rfl

/-- A shuffle that turns the keys around. -/
def reverse (K : Type*) : Shuffle K where
  shuffle := List.reverse
  shuffle_perm := List.reverse_perm

end Reserving

end HashTableT

section Creation

variable {K T : Type*} [DecidableEq K] (ops : HashTableT K T) (random : Nat → K)
  (iNumberElements : Nat)

/-- The generator, by the number of keys it has drawn, and the table. -/
structure Filling (T : Type*) where
  drawn : Nat
  hashTable : T

/-- `hashTable.emplace(randomDistribution(generator), hashTable.size())` -/
def Filling.emplaceRandom (s : Filling T) : Filling T where
  drawn := s.drawn + 1
  hashTable := (ops.emplace s.hashTable (random s.drawn) (ops.size s.hashTable)).1

/-- `CreateHashTableWithRandomElements`, for the values that the distribution draws. -/
def createHashTableWithRandomElements (fuel : Nat) : Option T :=
  (whileLoop (fun s : Filling T => ops.size s.hashTable ≠ iNumberElements)
    (Filling.emplaceRandom ops random) fuel ⟨0, ops.initialized⟩).map Filling.hashTable

/-- The keys among the first draws. -/
def seen (draws : Nat) : Finset K := (Finset.range draws).image random

/-- The key is among the first draws, and there were `v` other keys before it. -/
def DrawnAfter (draws : Nat) (k : K) (v : Nat) : Prop :=
  ∃ e < draws, random e = k ∧ k ∉ seen random e ∧ v = (seen random e).card

variable {ops random iNumberElements} {hashTable : T} {draws : Nat} {k : K} {v : Nat}

lemma seen_succ (draws : Nat) :
    seen random (draws + 1) = insert (random draws) (seen random draws) := by
  rw [seen, Finset.range_add_one, Finset.image_insert, seen]

lemma card_seen_mono {draws draws' : Nat} (h : draws ≤ draws') :
    (seen random draws).card ≤ (seen random draws').card := by
  apply Finset.card_le_card
  exact Finset.image_subset_image (Finset.range_mono h)

lemma card_seen_lt {e : Nat} (he : e < draws) (hfirst : random e ∉ seen random e) :
    (seen random e).card < (seen random draws).card := by
  have hstep : (seen random (e + 1)).card = (seen random e).card + 1 := by
    rw [seen_succ, Finset.card_insert_of_notMem hfirst]
  exact (Nat.lt_succ_self _).trans_le (hstep.symm.trans_le (card_seen_mono he))

lemma drawnAfter_succ : DrawnAfter random (draws + 1) k v ↔
    DrawnAfter random draws k v ∨
      random draws = k ∧ k ∉ seen random draws ∧ v = (seen random draws).card := by
  constructor
  · rintro ⟨e, he, hkey⟩
    rcases Nat.lt_succ_iff_lt_or_eq.mp he with he | rfl
    · exact Or.inl ⟨e, he, hkey⟩
    · exact Or.inr hkey
  · rintro (⟨e, he, hkey⟩ | hkey)
    · exact ⟨e, he.trans (Nat.lt_succ_self draws), hkey⟩
    · exact ⟨draws, Nat.lt_succ_self draws, hkey⟩

lemma mem_seen_iff : k ∈ seen random draws ↔ ∃ v, DrawnAfter random draws k v := by
  induction draws with
  | zero =>
    rw [seen, Finset.range_zero, Finset.image_empty]
    exact iff_of_false (Finset.notMem_empty k) (fun ⟨_, _, he, _⟩ => Nat.not_lt_zero _ he)
  | succ draws ih =>
    simp only [seen_succ, Finset.mem_insert, drawnAfter_succ, exists_or, ← ih]
    constructor
    · intro hk
      by_cases hmem : k ∈ seen random draws
      · exact Or.inl hmem
      · exact Or.inr ⟨_, (hk.resolve_right hmem).symm, hmem, rfl⟩
    · rintro (hmem | ⟨-, hkey, -⟩)
      · exact Or.inr hmem
      · exact Or.inl hkey.symm

lemma DrawnAfter.lt (h : DrawnAfter random draws k v) : v < (seen random draws).card := by
  obtain ⟨e, he, rfl, hfirst, rfl⟩ := h
  exact card_seen_lt he hfirst

/-- Different keys have different numbers of keys before them. -/
lemma DrawnAfter.key_unique {k' : K} (h : DrawnAfter random draws k v)
    (h' : DrawnAfter random draws k' v) : k = k' := by
  obtain ⟨e, -, rfl, hfirst, rfl⟩ := h
  obtain ⟨e', -, rfl, hfirst', hcard⟩ := h'
  rcases lt_trichotomy e e' with hlt | rfl | hlt
  · exact absurd hcard (card_seen_lt hlt hfirst).ne
  · rfl
  · exact absurd hcard (card_seen_lt hlt hfirst').ne'

/-- What the table finds after a number of draws: every key drawn, under the number of keys
drawn before it. -/
def Filled (ops : HashTableT K T) (random : Nat → K) (draws : Nat) (hashTable : T) : Prop :=
  ∀ k, ¬ops.Reserved k → ∀ v, ops.find hashTable k = some v ↔ DrawnAfter random draws k v

lemma Filled.find_eq_none_iff (h : Filled ops random draws hashTable) (hk : ¬ops.Reserved k) :
    ops.find hashTable k = none ↔ k ∉ seen random draws := by
  rw [mem_seen_iff, not_exists, Option.eq_none_iff_forall_ne_some]
  exact forall_congr' fun v => not_congr (h k hk v)

lemma filled_zero : Filled ops random 0 ops.initialized := by
  intro k hk v
  rw [ops.find_initialized k hk]
  exact iff_of_false (Option.some_ne_none v).symm (fun ⟨e, he, _⟩ => Nat.not_lt_zero e he)

lemma Filled.mem_iff (h : Filled ops random draws hashTable)
    (hdraws : ∀ e < draws, ¬ops.Reserved (random e)) :
    k ∈ ops.iteration hashTable ↔ k ∈ seen random draws := by
  rw [ops.mem_iteration]
  constructor
  · rintro ⟨hk, hfind⟩
    exact not_not.mp (fun hmem => hfind ((h.find_eq_none_iff hk).mpr hmem))
  · intro hmem
    have hk : ¬ops.Reserved k := by
      obtain ⟨e, he, rfl⟩ := Finset.mem_image.mp hmem
      exact hdraws e (Finset.mem_range.mp he)
    exact ⟨hk, fun hnone => (h.find_eq_none_iff hk).mp hnone hmem⟩

lemma Filled.size_eq (h : Filled ops random draws hashTable)
    (hdraws : ∀ e < draws, ¬ops.Reserved (random e)) :
    ops.size hashTable = (seen random draws).card := by
  rw [ops.size_eq, ← List.toFinset_card_of_nodup (ops.iteration_nodup hashTable)]
  apply congrArg Finset.card
  ext k
  rw [List.mem_toFinset, h.mem_iff hdraws]

lemma Filled.emplace (h : Filled ops random draws hashTable)
    (hdraws : ∀ e < draws + 1, ¬ops.Reserved (random e)) :
    Filled ops random (draws + 1)
      (ops.emplace hashTable (random draws) (ops.size hashTable)).1 := by
  intro k hk v
  have hkey := hdraws draws (Nat.lt_succ_self draws)
  rw [ops.find_emplace _ _ _ _ hkey hk, drawnAfter_succ,
    h.size_eq (fun e he => hdraws e (he.trans (Nat.lt_succ_self draws)))]
  by_cases hnew : k = random draws ∧ ops.find hashTable (random draws) = none
  · obtain ⟨rfl, hnone⟩ := hnew
    have hfirst := (h.find_eq_none_iff hk).mp hnone
    rw [if_pos ⟨rfl, hnone⟩, Option.some_inj]
    constructor
    · rintro rfl
      exact Or.inr ⟨rfl, hfirst, rfl⟩
    · rintro (hdrawn | ⟨-, -, rfl⟩)
      · exact absurd (mem_seen_iff.mpr ⟨v, hdrawn⟩) hfirst
      · rfl
  · rw [if_neg hnew, h k hk v]
    constructor
    · exact Or.inl
    · rintro (hdrawn | ⟨rfl, hfirst, -⟩)
      · exact hdrawn
      · exact absurd ⟨rfl, (h.find_eq_none_iff hk).mpr hfirst⟩ hnew

lemma drawn_iterate (draws : Nat) :
    ((Filling.emplaceRandom ops random)^[draws] ⟨0, ops.initialized⟩).drawn = draws := by
  induction draws with
  | zero => rfl
  | succ draws ih =>
    rw [Function.iterate_succ_apply', Filling.emplaceRandom, ih]

lemma filled_iterate (draws : Nat) (hdraws : ∀ e < draws, ¬ops.Reserved (random e)) :
    Filled ops random draws
      ((Filling.emplaceRandom ops random)^[draws] ⟨0, ops.initialized⟩).hashTable := by
  induction draws with
  | zero => exact filled_zero
  | succ draws ih =>
    rw [Function.iterate_succ_apply', Filling.emplaceRandom, drawn_iterate]
    exact (ih fun e he => hdraws e (he.trans (Nat.lt_succ_self draws))).emplace hdraws

lemma card_seen_succ_le (draws : Nat) :
    (seen random (draws + 1)).card ≤ (seen random draws).card + 1 := by
  rw [seen_succ]
  exact Finset.card_insert_le _ _

section NotReserved

-- The loop inserts no other keys than those that are drawn while some are missing.
variable (hrandom : ∀ draw, (seen random draw).card < iNumberElements →
  ¬ops.Reserved (random draw))

include hrandom

/-- As long as the loop goes on, it has drawn fewer keys than it was asked for. -/
lemma card_seen_of_before {rounds : Nat} (hbefore : ∀ e < rounds, ops.size
      ((Filling.emplaceRandom ops random)^[e] ⟨0, ops.initialized⟩).hashTable ≠
        iNumberElements) :
    ∀ e < rounds, (seen random e).card < iNumberElements := by
  intro e he
  induction e using Nat.strong_induction_on with
  | _ e ih =>
    have hlt : ∀ e' < e, (seen random e').card < iNumberElements :=
      fun e' he' => ih e' he' (he'.trans he)
    have hdraws : ∀ e' < e, ¬ops.Reserved (random e') := fun e' he' => hrandom e' (hlt e' he')
    have hne := hbefore e he
    rw [(filled_iterate e hdraws).size_eq hdraws] at hne
    apply lt_of_le_of_ne _ hne
    cases e with
    | zero => exact Nat.zero_le _
    | succ e => exact (card_seen_succ_le e).trans (hlt e (Nat.lt_succ_self e))

lemma filled_of_created {fuel : Nat}
    (h : createHashTableWithRandomElements ops random iNumberElements fuel = some hashTable) :
    ∃ draws < fuel, (seen random draws).card = iNumberElements ∧
      (∀ e < draws, (seen random e).card < iNumberElements) ∧
      (∀ e < draws, ¬ops.Reserved (random e)) ∧ Filled ops random draws hashTable := by
  obtain ⟨s, hs, rfl⟩ := Option.map_eq_some_iff.mp h
  obtain ⟨draws, hfuel, hstop, rfl⟩ := whileLoop_eq_some_iff.mp hs
  have hbefore := card_seen_of_before hrandom hstop.before
  have hdraws : ∀ e < draws, ¬ops.Reserved (random e) := fun e he => hrandom e (hbefore e he)
  have hfilled := filled_iterate draws hdraws
  refine ⟨draws, hfuel, ?_, hbefore, hdraws, hfilled⟩
  rw [← hfilled.size_eq hdraws]
  exact not_not.mp hstop.stop

/-- Draws that hold enough keys and miss some before the last of them. -/
lemma exists_stopsAt (h : iNumberElements ≤ (seen random draws).card) :
    ∃ rounds, StopsAt (fun s : Filling T => ops.size s.hashTable ≠ iNumberElements)
      (Filling.emplaceRandom ops random) ⟨0, ops.initialized⟩ rounds := by
  have hex : ∃ draws, iNumberElements ≤ (seen random draws).card := ⟨draws, h⟩
  have hle := Nat.find_spec hex
  have hlt : ∀ e < Nat.find hex, (seen random e).card < iNumberElements :=
    fun e he => Nat.lt_of_not_le (Nat.find_min hex he)
  have hdraws : ∀ e < Nat.find hex, ¬ops.Reserved (random e) :=
    fun e he => hrandom e (hlt e he)
  refine ⟨Nat.find hex, ?_, ?_⟩
  · rw [(filled_iterate _ hdraws).size_eq hdraws, not_not]
    cases hfirst : Nat.find hex with
    | zero =>
      rw [hfirst] at hle
      exact (Nat.le_zero.mp hle).symm
    | succ draws =>
      rw [hfirst] at hle
      have hlast := hlt draws (by rw [hfirst]; exact Nat.lt_succ_self draws)
      have hstep := @card_seen_succ_le K _ random draws
      omega
  · intro e he
    have hdraws_e : ∀ e' < e, ¬ops.Reserved (random e') :=
      fun e' he' => hdraws e' (he'.trans he)
    rw [(filled_iterate e hdraws_e).size_eq hdraws_e]
    exact (hlt e he).ne

omit hrandom in
/-- A table that does not reserve the keys it is given is made exactly when as many different
keys are drawn at some time. It holds the keys drawn by the first such time, each under the
number of other keys drawn before it. -/
theorem createHashTableWithRandomElements_correct (ops : HashTableT K T) (random : Nat → K)
    (iNumberElements : Nat) (hrandom : ∀ draw, (seen random draw).card < iNumberElements →
      ¬ops.Reserved (random draw)) :
    (∀ fuel hashTable,
      createHashTableWithRandomElements ops random iNumberElements fuel = some hashTable →
        ops.size hashTable = iNumberElements ∧ ∃ draws < fuel,
          (seen random draws).card = iNumberElements ∧
          (∀ e < draws, (seen random e).card < iNumberElements) ∧
          (∀ k, k ∈ ops.iteration hashTable ↔ k ∈ seen random draws) ∧
          ∀ k, ¬ops.Reserved k → ∀ v,
            ops.find hashTable k = some v ↔ DrawnAfter random draws k v) ∧
      ((∃ fuel hashTable,
        createHashTableWithRandomElements ops random iNumberElements fuel = some hashTable) ↔
        ∃ draws, iNumberElements ≤ (seen random draws).card) := by
  constructor
  · intro fuel hashTable hmade
    obtain ⟨draws, hfuel, hcard, hbefore, hdraws, hfilled⟩ := filled_of_created hrandom hmade
    exact ⟨(hfilled.size_eq hdraws).trans hcard, draws, hfuel, hcard, hbefore,
      fun k => hfilled.mem_iff hdraws, hfilled⟩
  · constructor
    · rintro ⟨fuel, hashTable, hmade⟩
      obtain ⟨draws, -, hcard, -⟩ := filled_of_created hrandom hmade
      exact ⟨draws, hcard.ge⟩
    · rintro ⟨draws, hdraws⟩
      obtain ⟨rounds, hstop⟩ := exists_stopsAt hrandom hdraws
      have hs := whileLoop_eq_some_iff.mpr ⟨rounds, Nat.lt_succ_self rounds, hstop, rfl⟩
      exact ⟨rounds + 1, _, congrArg (Option.map Filling.hashTable) hs⟩

end NotReserved

/-- Two keys, each drawn twice, for a table that reserves `-1`. -/
theorem createHashTableWithRandomElements_correct_twice :
    ∃ fuel hashTable, createHashTableWithRandomElements (Reserving.table [-1])
        (fun draw => ((draw / 2 : Nat) : Int)) 2 fuel = some hashTable ∧
      (Reserving.table [-1]).size hashTable = 2 := by
  obtain ⟨hmade, hfilling⟩ := createHashTableWithRandomElements_correct (Reserving.table [-1])
    (fun draw => ((draw / 2 : Nat) : Int)) 2
    (fun draw _ hmem => absurd (List.mem_singleton.mp hmem) (by omega))
  obtain ⟨fuel, hashTable, hcreated⟩ := hfilling.mpr ⟨4, by decide⟩
  exact ⟨fuel, hashTable, hcreated, (hmade fuel hashTable hcreated).1⟩

end Creation

section InsertErase

variable {K T : Type*} [DecidableEq K] (ops : HashTableT K T)

/-- The table after `emplace`, or after `erase` of the element that was in its way. -/
def HashTableT.emplaceOrErase (hashTable : T) (key : K) (value : Nat) : T :=
  let (hashTable, result) := ops.emplace hashTable key value
  if result = false then ops.erase hashTable key else hashTable

/-- The table and the index into the keys. -/
structure InsertErase (T : Type*) where
  hashTable : T
  i : Nat

namespace InsertErase

def numberReplicateElements : Nat := 15

def dataToLookup (shuffle : Shuffle K) (hashTable : T) : List K :=
  shuffle.shuffle (List.replicate numberReplicateElements (ops.iteration hashTable)).flatten

def iterate (dataToLookup : List K) (s : InsertErase T) : Option (InsertErase T) :=
  dataToLookup[s.i]?.map fun key =>
    { hashTable := ops.emplaceOrErase s.hashTable key s.i
      i := next dataToLookup.length s.i }

/-- The benchmark after a number of iterations, from the cleared table. -/
def run (hashTable : T) (dataToLookup : List K) : Nat → Option (InsertErase T)
  | 0 => some ⟨ops.clear hashTable, 0⟩
  | iterations + 1 => (run hashTable dataToLookup iterations).bind (iterate ops dataToLookup)

/-- The iterations that look a key up. -/
def occurrences (dataToLookup : List K) (k : K) (iterations : Nat) : List Nat :=
  (List.range iterations).filter
    (fun j => dataToLookup[j % dataToLookup.length]? = some k)

variable {ops} {hashTable : T} {key k : K} {value : Nat} {data : List K} {t : Nat}

lemma find_emplaceOrErase (hkey : ¬ops.Reserved key) (hk : ¬ops.Reserved k) :
    ops.find (ops.emplaceOrErase hashTable key value) k =
      if k = key then (if ops.find hashTable key = none then some value else none)
      else ops.find hashTable k := by
  have hfind := ops.find_emplace hashTable key value k hkey hk
  have hinserted := ops.emplace_snd hashTable key value hkey
  change ops.find (if (ops.emplace hashTable key value).2 = false
    then ops.erase (ops.emplace hashTable key value).1 key
    else (ops.emplace hashTable key value).1) k = _
  by_cases hnone : ops.find hashTable key = none
  · have hresult : ¬(ops.emplace hashTable key value).2 = false :=
      fun hfalse => Bool.false_ne_true (hfalse.symm.trans (hinserted.mpr hnone))
    rw [if_neg hresult, hfind, if_pos hnone]
    simp only [hnone, and_true]
  · have hresult : (ops.emplace hashTable key value).2 = false :=
      Bool.eq_false_iff.mpr (fun htrue => hnone (hinserted.mp htrue))
    rw [if_pos hresult, ops.find_erase _ key k hkey hk, hfind, if_neg hnone,
      if_neg (fun hnew : k = key ∧ ops.find hashTable key = none => hnone hnew.2)]

lemma occurrences_succ : occurrences data k (t + 1) = occurrences data k t ++
    if data[t % data.length]? = some k then [t] else [] := by
  rw [occurrences, List.range_succ, List.filter_append, occurrences, List.filter_cons,
    List.filter_nil]
  simp only [decide_eq_true_eq]

/-- A key is in the table after an odd number of its lookups, with the last of their
indices. -/
structure Toggled (ops : HashTableT K T) (data : List K) (t : Nat) (s : InsertErase T) :
    Prop where
  i_eq : s.i = t % data.length
  find_eq : ∀ k, ¬ops.Reserved k → ops.find s.hashTable k =
    if Odd (occurrences data k t).length
    then (occurrences data k t).getLast?.map (· % data.length) else none

lemma toggled_zero (hashTable : T) (data : List K) :
    Toggled ops data 0 ⟨ops.clear hashTable, 0⟩ where
  i_eq := (Nat.zero_mod _).symm
  find_eq k hk := by
    rw [ops.find_clear hashTable k hk]
    exact (if_neg Nat.not_odd_zero).symm

lemma Toggled.find_ne_none_iff {s : InsertErase T} (h : Toggled ops data t s)
    (hk : ¬ops.Reserved k) :
    ops.find s.hashTable k ≠ none ↔ Odd (occurrences data k t).length := by
  rw [h.find_eq k hk]
  by_cases hodd : Odd (occurrences data k t).length
  · have hne : occurrences data k t ≠ [] := by
      intro hnil
      rw [hnil] at hodd
      exact Nat.not_odd_zero hodd
    rw [if_pos hodd, List.getLast?_eq_some_getLast hne]
    exact iff_of_true (Option.some_ne_none _) hodd
  · rw [if_neg hodd]
    exact iff_of_false (fun hne => hne rfl) hodd

lemma Toggled.iterate (hdata : 0 < data.length) (hkeys : ∀ key ∈ data, ¬ops.Reserved key)
    {s : InsertErase T} (h : Toggled ops data t s) :
    ∃ s', iterate ops data s = some s' ∧ Toggled ops data (t + 1) s' := by
  have hlt : s.i < data.length := h.i_eq.trans_lt (Nat.mod_lt t hdata)
  have hkey : data[t % data.length]? = some data[s.i] := by
    rw [← h.i_eq]
    exact List.getElem?_eq_getElem hlt
  refine ⟨⟨ops.emplaceOrErase s.hashTable data[s.i] s.i, next data.length s.i⟩, ?_, ?_, ?_⟩
  · rw [InsertErase.iterate, List.getElem?_eq_getElem hlt, Option.map_some]
  · exact (congrArg (next data.length) h.i_eq).trans (next_mod hdata t)
  · intro k hreserved
    rw [find_emplaceOrErase (hkeys _ (List.getElem_mem hlt)) hreserved, occurrences_succ, hkey]
    by_cases hk : k = data[s.i]
    · have hfound := h.find_ne_none_iff hreserved
      rw [if_pos hk, ← hk, if_pos rfl, List.length_append, List.length_singleton,
        List.getLast?_concat, Option.map_some, ← h.i_eq]
      by_cases hodd : Odd (occurrences data k t).length
      · rw [if_neg (hfound.mpr hodd), if_neg (fun hnext => Nat.odd_add_one.mp hnext hodd)]
      · rw [if_pos (not_not.mp (fun hne => hodd (hfound.mp hne))),
          if_pos (Nat.odd_add_one.mpr hodd)]
    · have hne : ¬some data[s.i] = some k := fun heq => hk (Option.some_inj.mp heq).symm
      rw [if_neg hk, if_neg hne, List.append_nil]
      exact h.find_eq k hreserved

lemma toggled_run (hdata : 0 < data.length) (hkeys : ∀ key ∈ data, ¬ops.Reserved key)
    (hashTable : T) (t : Nat) :
    ∃ s, run ops hashTable data t = some s ∧ Toggled ops data t s := by
  induction t with
  | zero => exact ⟨_, rfl, toggled_zero hashTable data⟩
  | succ t ih =>
    obtain ⟨s, hs, htoggled⟩ := ih
    rw [run, hs, Option.bind_some]
    exact htoggled.iterate hdata hkeys

lemma length_occurrences_rounds (data : List K) (k : K) (rounds : Nat) :
    (occurrences data k (rounds * data.length)).length = rounds * data.count k := by
  have hcount : (occurrences data k (rounds * data.length)).length =
      ((List.range (rounds * data.length)).map
        (fun j => data[j % data.length]?)).count (some k) := by
    rw [occurrences, ← List.countP_eq_length_filter, List.count, List.countP_map]
    apply List.countP_congr
    intro j _
    rw [decide_eq_true_eq, Function.comp_apply, beq_iff_eq]
  rw [hcount, map_rounds, List.count_map_of_injective _ _ (Option.some_injective K),
    List.count_flatten, List.map_replicate, List.sum_replicate_nat]

section DataToLookup

variable (shuffle : Shuffle K) (hashTable : T)

lemma length_dataToLookup :
    (dataToLookup ops shuffle hashTable).length = 15 * ops.size hashTable := by
  rw [dataToLookup, (shuffle.shuffle_perm _).length_eq, List.length_flatten,
    List.map_replicate, List.sum_replicate_nat, ops.size_eq]
  rfl

lemma count_dataToLookup (k : K) : (dataToLookup ops shuffle hashTable).count k =
    if k ∈ ops.iteration hashTable then 15 else 0 := by
  rw [dataToLookup, (shuffle.shuffle_perm _).count_eq, List.count_flatten, List.map_replicate,
    List.sum_replicate_nat]
  by_cases hk : k ∈ ops.iteration hashTable
  · rw [if_pos hk, List.count_eq_one_of_mem (ops.iteration_nodup hashTable) hk]
    rfl
  · rw [if_neg hk, List.count_eq_zero_of_not_mem hk]
    rfl

lemma mem_dataToLookup :
    k ∈ dataToLookup ops shuffle hashTable ↔ k ∈ ops.iteration hashTable := by
  rw [← List.count_pos_iff, count_dataToLookup]
  by_cases hk : k ∈ ops.iteration hashTable
  · rw [if_pos hk]
    exact iff_of_true (Nat.succ_pos 14) hk
  · rw [if_neg hk]
    exact iff_of_false (Nat.lt_irrefl 0) hk

variable {shuffle hashTable}

/-- Only keys of the original table come back. -/
lemma Toggled.size_le {s : InsertErase T}
    (h : Toggled ops (dataToLookup ops shuffle hashTable) t s) :
    ops.size s.hashTable ≤ ops.size hashTable := by
  have hsubset : ops.iteration s.hashTable ⊆ ops.iteration hashTable := by
    intro k hk
    obtain ⟨hreserved, hfound⟩ := (ops.mem_iteration s.hashTable k).mp hk
    have hodd := (h.find_ne_none_iff hreserved).mp hfound
    obtain ⟨j, hj⟩ := List.exists_mem_of_length_pos (Nat.pos_of_ne_zero
      (fun h0 => Nat.not_odd_zero (h0 ▸ hodd)))
    have hmem := List.mem_of_getElem? (of_decide_eq_true (List.mem_filter.mp hj).2)
    exact (mem_dataToLookup shuffle hashTable).mp hmem
  rw [ops.size_eq, ops.size_eq]
  exact ((ops.iteration_nodup s.hashTable).subperm hsubset).length_le

end DataToLookup

/-- The benchmark never leaves its vector of keys and never holds more keys than the table
it was made from. A key is in the table after an odd number of its lookups, under the index
of the last of them, so the table is whole after every odd round and empty after every even
one. -/
theorem insertErase_correct (ops : HashTableT K T) (shuffle : Shuffle K) (hashTable : T)
    (hsize : 0 < ops.size hashTable) :
    (∀ iterations, ∃ s,
      run ops hashTable (dataToLookup ops shuffle hashTable) iterations = some s ∧
      s.i = iterations % (15 * ops.size hashTable) ∧
      ops.size s.hashTable ≤ ops.size hashTable ∧
      ∀ k, ¬ops.Reserved k → ops.find s.hashTable k =
        if Odd (occurrences (dataToLookup ops shuffle hashTable) k iterations).length
        then (occurrences (dataToLookup ops shuffle hashTable) k iterations).getLast?.map
          (· % (15 * ops.size hashTable)) else none) ∧
    ∀ rounds, ∃ s, run ops hashTable (dataToLookup ops shuffle hashTable)
        (rounds * (15 * ops.size hashTable)) = some s ∧
      ∀ k, k ∈ ops.iteration s.hashTable ↔ Odd rounds ∧ k ∈ ops.iteration hashTable := by
  have hlength : (dataToLookup ops shuffle hashTable).length = 15 * ops.size hashTable :=
    length_dataToLookup shuffle hashTable
  have hdata : 0 < (dataToLookup ops shuffle hashTable).length := by omega
  have hkeys : ∀ key ∈ dataToLookup ops shuffle hashTable, ¬ops.Reserved key :=
    fun key hkey => HashTableT.notReserved ((mem_dataToLookup shuffle hashTable).mp hkey)
  constructor
  · intro t
    obtain ⟨s, hs, htoggled⟩ := toggled_run hdata hkeys hashTable t
    refine ⟨s, hs, ?_, htoggled.size_le, ?_⟩
    · rw [← hlength]
      exact htoggled.i_eq
    · intro k hk
      rw [← hlength]
      exact htoggled.find_eq k hk
  · intro rounds
    obtain ⟨s, hs, htoggled⟩ :=
      toggled_run hdata hkeys hashTable (rounds * (15 * ops.size hashTable))
    refine ⟨s, hs, fun k => ?_⟩
    have hcount := length_occurrences_rounds (dataToLookup ops shuffle hashTable) k rounds
    rw [hlength, count_dataToLookup] at hcount
    rw [ops.mem_iteration]
    constructor
    · rintro ⟨hreserved, hfound⟩
      have hodd := (htoggled.find_ne_none_iff hreserved).mp hfound
      rw [hcount] at hodd
      by_cases hk : k ∈ ops.iteration hashTable
      · exact ⟨(Nat.odd_mul.mp hodd).1, hk⟩
      · rw [if_neg hk, Nat.mul_zero] at hodd
        exact absurd hodd Nat.not_odd_zero
    · rintro ⟨hrounds, hk⟩
      have hreserved := HashTableT.notReserved hk
      refine ⟨hreserved, (htoggled.find_ne_none_iff hreserved).mpr ?_⟩
      rw [hcount, if_pos hk]
      exact hrounds.mul (by decide)

/-- Three keys in a table that reserves `-1` and `-2`. -/
def threeKeys : Reserving ([-1, -2] : List Int) :=
  let hashTable := (Reserving.table [-1, -2]).initialized
  let hashTable := (Reserving.emplace _ hashTable 7 0).1
  let hashTable := (Reserving.emplace _ hashTable 9 1).1
  (Reserving.emplace _ hashTable 4 2).1

theorem insertErase_correct_threeKeys :
    ∃ s, run (Reserving.table [-1, -2]) threeKeys
        (dataToLookup (Reserving.table [-1, -2]) (Reserving.reverse Int) threeKeys)
        (3 * 45) = some s ∧
      ∀ k, k ∈ (Reserving.table [-1, -2]).iteration s.hashTable ↔ Odd 3 ∧ k ∈ [4, 9, 7] :=
  (insertErase_correct (Reserving.table [-1, -2]) (Reserving.reverse Int) threeKeys
    (by decide)).2 3

end InsertErase

end InsertErase

section Lookup

variable {K T : Type*} [DecidableEq K] (ops : HashTableT K T)

def createVectorFromHashTableKeysShuffled (shuffle : Shuffle K) (hashTable : T) : List K :=
  shuffle.shuffle (ops.iteration hashTable)

/-- `CacheSize::L3` -/
def cacheSizeL3 : Nat := 6 * (1024 * 1024)

def numberOfContainerToOverflowL3Cache (sizeofT iNumberOfElements : Nat) : Nat :=
  max 2 (3 * cacheSizeL3 / (sizeofT * iNumberOfElements))

/-- The copies are more than twice as large as the cache. -/
lemma overflows {sizeofT n : Nat} (h : 0 < sizeofT * n) :
    2 * cacheSizeL3 < numberOfContainerToOverflowL3Cache sizeofT n * (sizeofT * n) := by
  have hdiv : 3 * cacheSizeL3 < (3 * cacheSizeL3 / (sizeofT * n) + 1) * (sizeofT * n) := by
    rw [Nat.mul_comm _ (sizeofT * n)]
    exact Nat.lt_mul_div_succ _ h
  have hquotient : 3 * cacheSizeL3 / (sizeofT * n) * (sizeofT * n) ≤
      numberOfContainerToOverflowL3Cache sizeofT n * (sizeofT * n) :=
    Nat.mul_le_mul_right _ (Nat.le_max_right _ _)
  have htwo : 2 * (sizeofT * n) ≤ numberOfContainerToOverflowL3Cache sizeofT n * (sizeofT * n) :=
    Nat.mul_le_mul_right _ (Nat.le_max_left _ _)
  rw [Nat.add_mul] at hdiv
  omega

lemma numberOfContainer_pos (sizeofT n : Nat) : 0 < numberOfContainerToOverflowL3Cache sizeofT n :=
  Nat.zero_lt_two.trans_le (Nat.le_max_left _ _)

def createHashTablesWithRandomElementsToOverflowL3Cache (random : Nat → K)
    (sizeofT iNumberElements fuel : Nat) : Option (List T) :=
  (createHashTableWithRandomElements ops random iNumberElements fuel).map fun hashTable =>
    (List.range (numberOfContainerToOverflowL3Cache sizeofT iNumberElements)).map
      fun i => ops.copy i hashTable

variable {ops}

/-- The copies of a table that was made. -/
lemma exists_created {random : Nat → K} {sizeofT iNumberElements fuel : Nat} {hashTables : List T}
    (hmade : createHashTablesWithRandomElementsToOverflowL3Cache ops random sizeofT
      iNumberElements fuel = some hashTables) :
    ∃ hashTable,
      createHashTableWithRandomElements ops random iNumberElements fuel = some hashTable ∧
      hashTables.length = numberOfContainerToOverflowL3Cache sizeofT iNumberElements ∧
      ∀ copy ∈ hashTables, ∃ i, copy = ops.copy i hashTable := by
  obtain ⟨hashTable, hcreated, rfl⟩ := Option.map_eq_some_iff.mp hmade
  refine ⟨hashTable, hcreated, ?_, ?_⟩
  · rw [List.length_map, List.length_range]
  · intro copy hcopy
    obtain ⟨i, -, rfl⟩ := List.mem_map.mp hcopy
    exact ⟨i, rfl⟩

/-- Different keys of a table that was filled find different numbers below its size. -/
lemma Filled.exists_found {random : Nat → K} {draws : Nat} {hashTable : T} {keys : List K}
    (hdraws : ∀ e < draws, ¬ops.Reserved (random e)) (h : Filled ops random draws hashTable)
    (hkeys : keys.Perm (ops.iteration hashTable)) :
    ∃ found : List Nat, found.Perm (List.range (ops.size hashTable)) ∧
      keys.map (ops.find hashTable) = found.map some := by
  have hdrawn : ∀ k ∈ keys, ∃ v, DrawnAfter random draws k v ∧
      ops.find hashTable k = some v := by
    intro k hk
    have hmem := hkeys.mem_iff.mp hk
    obtain ⟨v, hv⟩ := mem_seen_iff.mp ((h.mem_iff hdraws).mp hmem)
    exact ⟨v, hv, (h k (HashTableT.notReserved hmem) v).mpr hv⟩
  have hnodup : (keys.map (ops.find hashTable)).Nodup := by
    apply List.Nodup.map_on
    · intro k hk k' hk' hfind
      obtain ⟨v, hv, hfound⟩ := hdrawn k hk
      obtain ⟨v', hv', hfound'⟩ := hdrawn k' hk'
      obtain rfl : v = v' := Option.some.inj (hfound.symm.trans (hfind.trans hfound'))
      exact hv.key_unique hv'
    · exact hkeys.nodup_iff.mpr (ops.iteration_nodup hashTable)
  have hsubset : keys.map (ops.find hashTable) ⊆
      (List.range (ops.size hashTable)).map some := by
    intro result hresult
    obtain ⟨k, hk, rfl⟩ := List.mem_map.mp hresult
    obtain ⟨v, hv, hfound⟩ := hdrawn k hk
    rw [hfound, h.size_eq hdraws]
    exact List.mem_map_of_mem (List.mem_range.mpr hv.lt)
  apply exists_eq_map_some
  apply (hnodup.subperm hsubset).perm_of_length_le
  rw [List.length_map, List.length_map, List.length_range, hkeys.length_eq, ops.size_eq]

variable (ops)

namespace HashTableLookup

/-- What `find` finds in the one table, and the index after it. -/
def iterate (hashTable : T) (dataToLookup : List K) (i : Nat) : Option (Option Nat × Nat) :=
  dataToLookup[i]?.map fun key => (ops.find hashTable key, next dataToLookup.length i)

/-- The benchmark of one table after a number of iterations, with what they found. -/
def run (hashTable : T) (dataToLookup : List K) : Nat → Option (List (Option Nat) × Nat)
  | 0 => some ([], 0)
  | iterations + 1 =>
    (run hashTable dataToLookup iterations).bind fun (found, i) =>
      (iterate ops hashTable dataToLookup i).map fun (result, i) => (found ++ [result], i)

variable {ops} {data : List K}

lemma run_eq (hashTable : T) (hdata : 0 < data.length) (iterations : Nat) :
    run ops hashTable data iterations =
      some ((List.range iterations).map
          (fun j => data[j % data.length]?.bind (ops.find hashTable)),
        iterations % data.length) := by
  induction iterations with
  | zero => rw [run, Nat.zero_mod]; rfl
  | succ t ih =>
    obtain ⟨key, hkey⟩ : ∃ key, data[t % data.length]? = some key :=
      ⟨_, List.getElem?_eq_getElem (Nat.mod_lt t hdata)⟩
    rw [run, ih, Option.bind_some]
    simp only [iterate, hkey, Option.bind_some, Option.map_some, next_mod hdata, List.range_succ,
      List.map_append, List.map_singleton]

/-- A random table is looked up by its own keys. Every lookup finds its key, and every round
over the keys finds the numbers below the size of the table, each once and always in the same
order. -/
theorem hashTableLookup_correct (ops : HashTableT K T) (shuffle : Shuffle K)
    (random : Nat → K) (iNumberElements fuel : Nat)
    (hrandom : ∀ draw, (seen random draw).card < iNumberElements → ¬ops.Reserved (random draw))
    (hsize : 0 < iNumberElements) {hashTable : T}
    (hmade : createHashTableWithRandomElements ops random iNumberElements fuel =
      some hashTable) :
    ∃ found : List Nat, found.Perm (List.range iNumberElements) ∧ ∀ iterations,
      run ops hashTable (createVectorFromHashTableKeysShuffled ops shuffle hashTable)
        iterations = some ((List.range iterations).map (fun j => found[j % iNumberElements]?),
          iterations % iNumberElements) := by
  obtain ⟨draws, -, hcard, -, hdraws, hfilled⟩ := filled_of_created hrandom hmade
  have hn : ops.size hashTable = iNumberElements := (hfilled.size_eq hdraws).trans hcard
  obtain ⟨found, hperm, hfound⟩ :=
    hfilled.exists_found hdraws (shuffle.shuffle_perm (ops.iteration hashTable))
  rw [hn] at hperm
  have hdata : (createVectorFromHashTableKeysShuffled ops shuffle hashTable).length =
      iNumberElements := by
    rw [createVectorFromHashTableKeysShuffled, ← List.length_map, hfound, List.length_map,
      hperm.length_eq, List.length_range]
  refine ⟨found, hperm, fun iterations => ?_⟩
  rw [run_eq hashTable (hsize.trans_eq hdata.symm), hdata]
  simp only [createVectorFromHashTableKeysShuffled, getElem?_bind_eq hfound]

end HashTableLookup

/-- The index of the table and the index into the keys. -/
structure CacheMissLookup where
  hashTableIndex : Nat
  i : Nat

namespace CacheMissLookup

/-- What `find` finds, and the indices after it. -/
def iterate (hashTables : List T) (dataToLookup : List K) (s : CacheMissLookup) :
    Option (Option Nat × CacheMissLookup) :=
  hashTables[s.hashTableIndex]?.bind fun hashTable =>
    dataToLookup[s.i]?.map fun key =>
      (ops.find hashTable key,
        { hashTableIndex := next hashTables.length s.hashTableIndex
          i := next dataToLookup.length s.i })

/-- The benchmark after a number of iterations, with what they found. -/
def run (hashTables : List T) (dataToLookup : List K) :
    Nat → Option (List (Option Nat) × CacheMissLookup)
  | 0 => some ([], ⟨0, 0⟩)
  | iterations + 1 =>
    (run hashTables dataToLookup iterations).bind fun (found, s) =>
      (iterate ops hashTables dataToLookup s).map fun (result, s) => (found ++ [result], s)

variable {ops} {hashTable : T} {hashTables : List T} {data : List K}

/-- Copies of a table find what the table finds, one key after the other. -/
lemma run_eq (hcopies : ∀ copy ∈ hashTables, ∃ i, copy = ops.copy i hashTable)
    (htables : 0 < hashTables.length) (hdata : 0 < data.length)
    (hkeys : ∀ key ∈ data, ¬ops.Reserved key) (iterations : Nat) :
    run ops hashTables data iterations =
      some ((List.range iterations).map
          (fun j => data[j % data.length]?.bind (ops.find hashTable)),
        ⟨iterations % hashTables.length, iterations % data.length⟩) := by
  induction iterations with
  | zero => rw [run, Nat.zero_mod, Nat.zero_mod]; rfl
  | succ t ih =>
    have hkey := List.getElem?_eq_getElem (Nat.mod_lt t hdata)
    have hcopy := List.getElem?_eq_getElem (Nat.mod_lt t htables)
    obtain ⟨i, hi⟩ := hcopies _ (List.getElem_mem (Nat.mod_lt t htables))
    have hfind := ops.find_copy i hashTable _ (hkeys _ (List.getElem_mem (Nat.mod_lt t hdata)))
    rw [run, ih, Option.bind_some]
    simp only [iterate, hkey, hcopy, hi, hfind, Option.bind_some, Option.map_some,
      next_mod hdata, next_mod htables, List.range_succ, List.map_append, List.map_singleton]

/-- Copies of a random table, more than twice as large as the cache together, are all looked
up in turn. Every lookup finds its key, and every round over the keys finds the numbers below
the size of the table, each once and always in the same order. -/
theorem cacheMissLookup_correct (ops : HashTableT K T) (shuffle : Shuffle K)
    (random : Nat → K) (sizeofT iNumberElements fuel : Nat)
    (hrandom : ∀ draw, (seen random draw).card < iNumberElements → ¬ops.Reserved (random draw))
    (hsize : 0 < sizeofT * iNumberElements) {hashTable : T} {hashTables : List T}
    (hmade : createHashTablesWithRandomElementsToOverflowL3Cache ops random sizeofT
      iNumberElements fuel = some (hashTable :: hashTables)) :
    2 * cacheSizeL3 < (hashTable :: hashTables).length * (sizeofT * iNumberElements) ∧
    ∃ found : List Nat, found.Perm (List.range iNumberElements) ∧ ∀ iterations,
      run ops (hashTable :: hashTables)
        (createVectorFromHashTableKeysShuffled ops shuffle hashTable) iterations =
          some ((List.range iterations).map (fun j => found[j % iNumberElements]?),
            ⟨iterations % (hashTable :: hashTables).length, iterations % iNumberElements⟩) := by
  obtain ⟨original, hcreated, hlength, hcopies⟩ := exists_created hmade
  obtain ⟨draws, -, hcard, -, hdraws, hfilled⟩ := filled_of_created hrandom hcreated
  have hn : ops.size original = iNumberElements := (hfilled.size_eq hdraws).trans hcard
  have hkeys : (createVectorFromHashTableKeysShuffled ops shuffle hashTable).Perm
      (ops.iteration original) := by
    obtain ⟨i, rfl⟩ := hcopies hashTable List.mem_cons_self
    exact (shuffle.shuffle_perm _).trans (ops.iteration_copy_perm i original)
  obtain ⟨found, hperm, hfound⟩ := hfilled.exists_found hdraws hkeys
  rw [hn] at hperm
  have hdata : (createVectorFromHashTableKeysShuffled ops shuffle hashTable).length =
      iNumberElements := by
    rw [hkeys.length_eq, ← ops.size_eq, hn]
  have hpos : 0 < iNumberElements := Nat.pos_of_mul_pos_left hsize
  refine ⟨?_, found, hperm, ?_⟩
  · rw [hlength]
    exact overflows hsize
  · intro iterations
    have hlookup := fun j => getElem?_bind_eq hfound (j % iNumberElements)
    rw [run_eq hcopies (Nat.succ_pos _) (hpos.trans_eq hdata.symm)
      (fun key hkey => HashTableT.notReserved (hkeys.mem_iff.mp hkey)), hdata]
    simp only [hlookup]

/-- Two keys in a table that reserves `-1`. -/
def twoKeys : Reserving ([-1] : List Int) :=
  (Reserving.emplace _ (Reserving.emplace _ (Reserving.table [-1]).initialized 0 0).1 1 1).1

theorem cacheMissLookup_correct_twoKeys :
    ∃ found : List Nat, found.Perm (List.range 2) ∧ ∀ iterations,
      run (Reserving.table [-1]) [twoKeys, twoKeys]
        (createVectorFromHashTableKeysShuffled (Reserving.table [-1]) (Reserving.reverse Int)
          twoKeys) iterations =
        some ((List.range iterations).map (fun j => found[j % 2]?),
          ⟨iterations % 2, iterations % 2⟩) :=
  (cacheMissLookup_correct (Reserving.table [-1]) (Reserving.reverse Int)
    (fun draw => ((draw / 2 : Nat) : Int)) (2 ^ 23) 2 4
    (fun draw _ hmem => absurd (List.mem_singleton.mp hmem) (by omega)) (by decide) rfl).2

end CacheMissLookup

namespace CacheMissFailLookup

/-- The keys that are looked up, for the values that their distribution draws. -/
def dataToLookup (drawn : Nat → K) : List K := (List.range 1000000).map drawn

omit [DecidableEq K] in
lemma length_dataToLookup (drawn : Nat → K) : (dataToLookup drawn).length = 1000000 := by
  rw [dataToLookup, List.length_map, List.length_range]

omit [DecidableEq K] in
lemma getElem?_dataToLookup (drawn : Nat → K) (j : Nat) :
    (dataToLookup drawn)[j % 1000000]? = some (drawn (j % 1000000)) := by
  have hj : j % 1000000 < 1000000 := Nat.mod_lt j (Nat.succ_pos 999999)
  rw [dataToLookup, List.getElem?_map, List.getElem?_range hj, Option.map_some]

/-- Keys drawn apart from the table are looked up in its copies. A lookup finds a number
exactly when its key was drawn for the table, and then the number of other keys drawn before
it. -/
theorem cacheMissFailLookup_correct (ops : HashTableT K T) (random drawn : Nat → K)
    (sizeofT iNumberElements fuel : Nat)
    (hrandom : ∀ draw, (seen random draw).card < iNumberElements → ¬ops.Reserved (random draw))
    (hdrawn : ∀ draw < 1000000, ¬ops.Reserved (drawn draw))
    (hsize : 0 < sizeofT * iNumberElements) {hashTables : List T}
    (hmade : createHashTablesWithRandomElementsToOverflowL3Cache ops random sizeofT
      iNumberElements fuel = some hashTables) :
    2 * cacheSizeL3 < hashTables.length * (sizeofT * iNumberElements) ∧
    ∃ draws, (seen random draws).card = iNumberElements ∧ ∀ iterations, ∃ found,
      CacheMissLookup.run ops hashTables (dataToLookup drawn) iterations =
        some (found, ⟨iterations % hashTables.length, iterations % 1000000⟩) ∧
      found.length = iterations ∧
      ∀ j < iterations, ∀ v, found[j]? = some (some v) ↔
        DrawnAfter random draws (drawn (j % 1000000)) v := by
  obtain ⟨original, hcreated, hlength, hcopies⟩ := exists_created hmade
  obtain ⟨draws, -, hcard, -, -, hfilled⟩ := filled_of_created hrandom hcreated
  have hdata := length_dataToLookup drawn
  have hkeys : ∀ key ∈ dataToLookup drawn, ¬ops.Reserved key := by
    intro key hkey
    obtain ⟨draw, hdraw, rfl⟩ := List.mem_map.mp hkey
    exact hdrawn draw (List.mem_range.mp hdraw)
  constructor
  · rw [hlength]
    exact overflows hsize
  refine ⟨draws, hcard, fun iterations => ⟨(List.range iterations).map (fun j =>
    (dataToLookup drawn)[j % (dataToLookup drawn).length]?.bind (ops.find original)),
    ?_, ?_, ?_⟩⟩
  · rw [CacheMissLookup.run_eq hcopies (by rw [hlength]; exact numberOfContainer_pos _ _)
      (by rw [hdata]; exact Nat.succ_pos 999999) hkeys]
    simp only [hdata]
  · rw [List.length_map, List.length_range]
  · intro j hj v
    rw [hdata, List.getElem?_map, List.getElem?_range hj, Option.map_some,
      getElem?_dataToLookup, Option.bind_some, Option.some_inj]
    exact hfilled _ (hdrawn _ (Nat.mod_lt j (Nat.succ_pos 999999))) v

/-- The keys looked up start with the second of two that were drawn. -/
theorem cacheMissFailLookup_correct_twoKeys :
    ∃ draws, (seen (fun draw => ((draw / 2 : Nat) : Int)) draws).card = 2 ∧
      ∀ iterations, ∃ found,
        CacheMissLookup.run (Reserving.table [-1])
          [CacheMissLookup.twoKeys, CacheMissLookup.twoKeys]
          (dataToLookup (fun draw => ((draw + 1 : Nat) : Int))) iterations =
            some (found, ⟨iterations % 2, iterations % 1000000⟩) ∧
        found.length = iterations := by
  have hmade : createHashTablesWithRandomElementsToOverflowL3Cache (Reserving.table [-1])
      (fun draw => ((draw / 2 : Nat) : Int)) (2 ^ 23) 2 4 =
        some [CacheMissLookup.twoKeys, CacheMissLookup.twoKeys] := rfl
  obtain ⟨-, draws, hcard, hruns⟩ := cacheMissFailLookup_correct (Reserving.table [-1])
    (fun draw => ((draw / 2 : Nat) : Int)) (fun draw => ((draw + 1 : Nat) : Int)) (2 ^ 23) 2 4
    (fun draw _ hmem => absurd (List.mem_singleton.mp hmem) (by omega))
    (fun draw _ hmem => absurd (List.mem_singleton.mp hmem) (by omega)) (by decide) hmade
  refine ⟨draws, hcard, fun iterations => ?_⟩
  obtain ⟨found, hrun, hfound, -⟩ := hruns iterations
  exact ⟨found, hrun, hfound⟩

end CacheMissFailLookup

end Lookup

end CppBenchmark
