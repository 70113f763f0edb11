import CppBenchmark.Foundation.MemoryCells
import CppBenchmark.Foundation.PackedLayout
import Mathlib.Algebra.Order.Floor.Div

/-!
# Records with aligned members

Members of a record are placed in order, each at the first address that its alignment
allows, and the size of a record is a multiple of its alignment. Alignments are powers of
two. The placement is the least of all that keep the members in order, apart and aligned,
so a record whose alignments are capped is never longer.
-/

namespace RecordLayout

open ByteMemory MemoryCells PackedLayout

def alignUp (n a : Nat) : Nat := a * (n ⌈/⌉ a)

section AlignUp

variable {n m a b : Nat}

lemma le_alignUp (ha : 0 < a) : n ≤ alignUp n a := le_smul_ceilDiv ha

lemma dvd_alignUp (n a : Nat) : a ∣ alignUp n a := Nat.dvd_mul_right _ _

lemma alignUp_le (ha : 0 < a) (hn : n ≤ m) (hm : a ∣ m) : alignUp n a ≤ m := by
  obtain ⟨k, rfl⟩ := hm
  exact Nat.mul_le_mul_left a ((ceilDiv_le_iff_le_mul ha).mpr hn)

lemma alignUp_eq_self (ha : 0 < a) (hn : a ∣ n) : alignUp n a = n :=
  le_antisymm (alignUp_le ha le_rfl hn) (le_alignUp ha)

lemma alignUp_mono (ha : 0 < a) (hb : 0 < b) (hnm : n ≤ m) (hab : a ∣ b) :
    alignUp n a ≤ alignUp m b :=
  alignUp_le ha (hnm.trans (le_alignUp hb)) (hab.trans (dvd_alignUp m b))

end AlignUp

/-- A member of a record by its size and the logarithm of its alignment, with room for
whole members side by side. -/
structure Member where
  sizeof : Nat
  logAlign : Nat
  dvd_sizeof : 2 ^ logAlign ∣ sizeof

namespace Member

/-- A number as large as its alignment. -/
def scalar (log : Nat) : Member := ⟨2 ^ log, log, dvd_rfl⟩

def bytes (n : Nat) : Member := ⟨n, 0, one_dvd n⟩

variable (m : Member)

def alignof : Nat := 2 ^ m.logAlign

lemma alignof_pos : 0 < m.alignof := Nat.two_pow_pos m.logAlign

/-- The member with its alignment capped. -/
def pack (cap : Nat) : Member where
  sizeof := m.sizeof
  logAlign := min cap m.logAlign
  dvd_sizeof := (pow_dvd_pow 2 (min_le_right cap m.logAlign)).trans m.dvd_sizeof

lemma alignof_pack_dvd (cap : Nat) : (m.pack cap).alignof ∣ m.alignof :=
  pow_dvd_pow 2 (min_le_right cap m.logAlign)

lemma alignof_pack_zero : (m.pack 0).alignof = 1 := by
  change 2 ^ min 0 m.logAlign = 1
  rw [Nat.zero_min, pow_zero]

lemma pack_pack {cap cap' : Nat} (h : cap ≤ cap') : (m.pack cap').pack cap = m.pack cap := by
  have hmin : min cap (min cap' m.logAlign) = min cap m.logAlign := by
    rw [← min_assoc, min_eq_left h]
  unfold pack
  simp only [hmin]

end Member

variable {m : Member} {ms : List Member}

def offsetsFrom : Nat → List Member → List Nat
  | _, [] => []
  | start, m :: ms =>
    alignUp start m.alignof :: offsetsFrom (alignUp start m.alignof + m.sizeof) ms

def endFrom : Nat → List Member → Nat
  | start, [] => start
  | start, m :: ms => endFrom (alignUp start m.alignof + m.sizeof) ms

def offset (ms : List Member) (i : Nat) : Nat := (offsetsFrom 0 ms).getD i 0

def sizes (ms : List Member) : List Nat := ms.map Member.sizeof

def pack (cap : Nat) (ms : List Member) : List Member := ms.map (fun m => m.pack cap)

def logAlign (ms : List Member) : Nat := (ms.map Member.logAlign).foldr max 0

def alignof (ms : List Member) : Nat := 2 ^ logAlign ms

def sizeof (ms : List Member) : Nat := alignUp (endFrom 0 ms) (alignof ms)

/-- Offsets that keep the members in order, apart and aligned, and end by `stop`. -/
inductive Placed : Nat → List Member → List Nat → Nat → Prop
  | nil {start stop : Nat} (hstop : start ≤ stop) : Placed start [] [] stop
  | cons {start o stop : Nat} {m : Member} {ms : List Member} {os : List Nat} (hstart : start ≤ o)
    (haligned : m.alignof ∣ o) (hrest : Placed (o + m.sizeof) ms os stop) :
    Placed start (m :: ms) (o :: os) stop

lemma placed_offsetsFrom (start : Nat) (ms : List Member) :
    Placed start ms (offsetsFrom start ms) (endFrom start ms) := by
  induction ms generalizing start with
  | nil => exact .nil le_rfl
  | cons m ms ih => exact .cons (le_alignUp m.alignof_pos) (dvd_alignUp _ _) (ih _)

namespace Placed

variable {start stop i j : Nat} {ms : List Member} {os : List Nat}

lemma length_eq (h : Placed start ms os stop) : os.length = ms.length := by
  induction h with
  | nil => rfl
  | cons _ _ _ ih => rw [List.length_cons, ih, List.length_cons]

lemma start_le (h : Placed start ms os stop) : (∀ o ∈ os, start ≤ o) ∧ start ≤ stop := by
  induction h with
  | nil hstop => exact ⟨fun o ho => absurd ho List.not_mem_nil, hstop⟩
  | cons hstart _ _ ih =>
    rw [List.forall_mem_cons]
    exact ⟨⟨hstart, fun o ho => by have := ih.1 o ho; omega⟩, by omega⟩

lemma end_le (h : Placed start ms os stop) (hi : i < ms.length) (hi' : i < os.length) :
    os[i] + ms[i].sizeof ≤ stop := by
  induction h generalizing i with
  | nil => exact absurd hi (Nat.not_lt_zero i)
  | cons _ _ hrest ih =>
    cases i with
    | zero => exact hrest.start_le.2
    | succ i => exact ih (Nat.lt_of_succ_lt_succ hi) (Nat.lt_of_succ_lt_succ hi')

lemma apart (h : Placed start ms os stop) (hij : i < j) (hi : i < ms.length)
    (hi' : i < os.length) (hj : j < os.length) : os[i] + ms[i].sizeof ≤ os[j] := by
  induction h generalizing i j with
  | nil => exact absurd hi (Nat.not_lt_zero i)
  | cons _ _ hrest ih =>
    cases j with
    | zero => exact absurd hij (Nat.not_lt_zero i)
    | succ j =>
      cases i with
      | zero => exact hrest.start_le.1 _ (List.getElem_mem _)
      | succ i =>
        exact ih (Nat.lt_of_succ_lt_succ hij) (Nat.lt_of_succ_lt_succ hi)
          (Nat.lt_of_succ_lt_succ hi') (Nat.lt_of_succ_lt_succ hj)

lemma mono (h : Placed start ms os stop) {stop' : Nat} (hstop' : stop ≤ stop') :
    Placed start ms os stop' := by
  induction h with
  | nil hstop => exact .nil (hstop.trans hstop')
  | cons hstart haligned _ ih => exact .cons hstart haligned (ih hstop')

/-- No placement has an earlier member than the one member by member. -/
lemma least (h : Placed start ms os stop) {start' : Nat} (hstart' : start' ≤ start) :
    List.Forall₂ (· ≤ ·) (offsetsFrom start' ms) os ∧ endFrom start' ms ≤ stop := by
  induction h generalizing start' with
  | nil hstop => exact ⟨.nil, hstart'.trans hstop⟩
  | @cons start o stop m ms os hstart haligned _ ih =>
    have hle : alignUp start' m.alignof ≤ o :=
      alignUp_le m.alignof_pos (hstart'.trans hstart) haligned
    obtain ⟨hrest, hstop⟩ := ih (Nat.add_le_add_right hle m.sizeof)
    exact ⟨.cons hle hrest, hstop⟩

/-- A cap on the alignments allows every placement that there is without it. -/
lemma pack (h : Placed start ms os stop) (cap : Nat) : Placed start (pack cap ms) os stop := by
  induction h with
  | nil hstop => exact .nil hstop
  | @cons start o stop m ms os hstart haligned _ ih =>
    exact .cons hstart ((m.alignof_pack_dvd cap).trans haligned) ih

end Placed

section Offsets

variable {i j : Nat}

lemma offsetsFrom_length (start : Nat) (ms : List Member) :
    (offsetsFrom start ms).length = ms.length :=
  (placed_offsetsFrom start ms).length_eq

lemma offset_eq (hi : i < (offsetsFrom 0 ms).length) : offset ms i = (offsetsFrom 0 ms)[i] :=
  List.getD_eq_getElem _ _ hi

lemma offset_add_le (hij : i < j) (hi : i < ms.length) (hj : j < ms.length) :
    offset ms i + ms[i].sizeof ≤ offset ms j := by
  have hoi : i < (offsetsFrom 0 ms).length := by rwa [offsetsFrom_length]
  have hoj : j < (offsetsFrom 0 ms).length := by rwa [offsetsFrom_length]
  rw [offset_eq hoj, offset_eq hoi]
  exact (placed_offsetsFrom 0 ms).apart hij _ _ _

lemma offset_add_le_sizeof (hi : i < ms.length) : offset ms i + ms[i].sizeof ≤ sizeof ms := by
  have ho : i < (offsetsFrom 0 ms).length := by rwa [offsetsFrom_length]
  rw [offset_eq ho]
  apply ((placed_offsetsFrom 0 ms).end_le hi ho).trans
  exact le_alignUp (Nat.two_pow_pos _)

lemma placed_sizeof (ms : List Member) : Placed 0 ms (offsetsFrom 0 ms) (sizeof ms) :=
  (placed_offsetsFrom 0 ms).mono (le_alignUp (Nat.two_pow_pos _))

/-- A record is the least placement with room for whole records side by side. -/
theorem sizeof_least {os : List Nat} {stop : Nat} (h : Placed 0 ms os stop)
    (hstop : alignof ms ∣ stop) :
    List.Forall₂ (· ≤ ·) (offsetsFrom 0 ms) os ∧ sizeof ms ≤ stop := by
  obtain ⟨hoffsets, hend⟩ := h.least le_rfl
  exact ⟨hoffsets, alignUp_le (Nat.two_pow_pos _) hend hstop⟩

lemma le_logAlign (hm : m ∈ ms) : m.logAlign ≤ logAlign ms := by
  induction ms with
  | nil => exact absurd hm List.not_mem_nil
  | cons m' ms ih =>
    rcases List.mem_cons.mp hm with rfl | hm
    · exact le_max_left _ _
    · exact (ih hm).trans (le_max_right _ _)

lemma logAlign_le {n : Nat} (h : ∀ m ∈ ms, m.logAlign ≤ n) : logAlign ms ≤ n := by
  induction ms with
  | nil => exact Nat.zero_le n
  | cons m ms ih =>
    rw [List.forall_mem_cons] at h
    exact max_le h.1 (ih h.2)

lemma alignof_dvd_sizeof (ms : List Member) : alignof ms ∣ sizeof ms := dvd_alignUp _ _

end Offsets

section Pack

variable {cap cap' : Nat}

lemma pack_pack (h : cap ≤ cap') : pack cap (pack cap' ms) = pack cap ms := by
  unfold pack
  rw [List.map_map]
  apply List.map_congr_left
  exact fun m _ => m.pack_pack h

lemma sizes_pack (cap : Nat) (ms : List Member) : sizes (pack cap ms) = sizes ms := by
  unfold sizes pack
  rw [List.map_map]
  rfl

/-- A cap that no alignment exceeds changes nothing. -/
lemma logAlign_pack_le (cap : Nat) (ms : List Member) : logAlign (pack cap ms) ≤ logAlign ms := by
  induction ms with
  | nil => exact le_rfl
  | cons m ms ih => exact max_le_max (min_le_right _ _) ih

lemma sizeof_pack_le (cap : Nat) (ms : List Member) : sizeof (pack cap ms) ≤ sizeof ms := by
  obtain ⟨-, hend⟩ := ((placed_offsetsFrom 0 ms).pack cap).least le_rfl
  exact alignUp_mono (Nat.two_pow_pos _) (Nat.two_pow_pos _) hend
    (pow_dvd_pow 2 (logAlign_pack_le cap ms))

/-- A smaller cap never makes a record longer. -/
theorem sizeof_pack_mono (h : cap ≤ cap') : sizeof (pack cap ms) ≤ sizeof (pack cap' ms) := by
  rw [← pack_pack h]
  exact sizeof_pack_le cap (pack cap' ms)

lemma logAlign_pack_zero (ms : List Member) : logAlign (pack 0 ms) = 0 := by
  induction ms with
  | nil => rfl
  | cons m ms ih =>
    change max (min 0 m.logAlign) (logAlign (pack 0 ms)) = 0
    rw [ih, Nat.zero_min, Nat.max_self]

lemma alignUp_one (n : Nat) : alignUp n 1 = n := alignUp_eq_self Nat.one_pos (one_dvd n)

lemma offsetsFrom_pack_zero (start i : Nat) (hi : i < ms.length) :
    (offsetsFrom start (pack 0 ms)).getD i 0 = start + PackedLayout.offset (sizes ms) i := by
  induction ms generalizing start i with
  | nil => exact absurd hi (Nat.not_lt_zero i)
  | cons m ms ih =>
    have hcons : offsetsFrom start (pack 0 (m :: ms)) =
        start :: offsetsFrom (start + m.sizeof) (pack 0 ms) := by
      change alignUp start (m.pack 0).alignof :: offsetsFrom _ _ = _
      rw [Member.alignof_pack_zero, alignUp_one]
      rfl
    rw [hcons]
    cases i with
    | zero => rfl
    | succ i =>
      rw [List.getD_cons_succ, ih _ _ (Nat.lt_of_succ_lt_succ hi), Nat.add_assoc]
      rfl

lemma endFrom_pack_zero (start : Nat) (ms : List Member) :
    endFrom start (pack 0 ms) = start + (sizes ms).sum := by
  induction ms generalizing start with
  | nil => rfl
  | cons m ms ih =>
    change endFrom (alignUp start (m.pack 0).alignof + m.sizeof) (pack 0 ms) = _
    rw [Member.alignof_pack_zero, alignUp_one, ih, Nat.add_assoc]
    rfl

/-- With every alignment capped to one byte the record is packed. -/
theorem pack_zero_packed (ms : List Member) :
    sizeof (pack 0 ms) = PackedLayout.sizeof (sizes ms) ∧
      ∀ i < ms.length, offset (pack 0 ms) i = PackedLayout.offset (sizes ms) i := by
  constructor
  · unfold sizeof alignof
    rw [logAlign_pack_zero, pow_zero, alignUp_one, endFrom_pack_zero, Nat.zero_add]
    rfl
  · intro i hi
    exact (offsetsFrom_pack_zero 0 i hi).trans (Nat.zero_add _)

end Pack

section Order

variable {start : Nat} {ms' : List Member}

lemma start_add_sum_le (start : Nat) (ms : List Member) :
    start + (sizes ms).sum ≤ endFrom start ms := by
  induction ms generalizing start with
  | nil => exact le_rfl
  | cons m ms ih =>
    have hle : start ≤ alignUp start m.alignof := le_alignUp m.alignof_pos
    have hrest := ih (alignUp start m.alignof + m.sizeof)
    change start + (m.sizeof + (sizes ms).sum) ≤ endFrom _ ms
    omega

/-- Members in an order of falling alignments follow each other without padding. -/
lemma endFrom_eq_sum (hsorted : ms.Pairwise (fun a b => b.logAlign ≤ a.logAlign))
    (hstart : ∀ m ∈ ms, m.alignof ∣ start) : endFrom start ms = start + (sizes ms).sum := by
  induction ms generalizing start with
  | nil => rfl
  | cons m ms ih =>
    rw [List.pairwise_cons] at hsorted
    rw [List.forall_mem_cons] at hstart
    have hrest : ∀ m' ∈ ms, m'.alignof ∣ start + m.sizeof := by
      intro m' hm'
      apply Nat.dvd_add (hstart.2 m' hm')
      exact (pow_dvd_pow 2 (hsorted.1 m' hm')).trans m.dvd_sizeof
    change endFrom (alignUp start m.alignof + m.sizeof) ms = start + (m.sizeof + (sizes ms).sum)
    rw [alignUp_eq_self m.alignof_pos hstart.1, ih hsorted.2 hrest, Nat.add_assoc]

lemma alignof_perm (h : ms.Perm ms') : alignof ms = alignof ms' := by
  unfold alignof
  congr 1
  apply le_antisymm
  · exact logAlign_le (fun m hm => le_logAlign (h.mem_iff.mp hm))
  · exact logAlign_le (fun m hm => le_logAlign (h.mem_iff.mpr hm))

lemma sizeof_of_sorted (hsorted : ms.Pairwise (fun a b => b.logAlign ≤ a.logAlign)) :
    sizeof ms = alignUp (sizes ms).sum (alignof ms) := by
  rw [sizeof, endFrom_eq_sum hsorted (fun m _ => dvd_zero m.alignof), Nat.zero_add]

/-- No order of the same members makes a shorter record than one of falling alignments. -/
theorem sizeof_le_of_sorted (hsorted : ms.Pairwise (fun a b => b.logAlign ≤ a.logAlign))
    (h : ms.Perm ms') : sizeof ms ≤ sizeof ms' := by
  have hsum : (sizes ms).sum = (sizes ms').sum := (h.map Member.sizeof).sum_eq
  rw [sizeof_of_sorted hsorted, sizeof, hsum, alignof_perm h]
  apply alignUp_mono (Nat.two_pow_pos _) (Nat.two_pow_pos _) _ dvd_rfl
  exact (Nat.le_add_left _ 0).trans (start_add_sum_le 0 ms')

end Order

section Array

variable {base k : Nat}

/-- Where a member of record number `k` of an array is. -/
def address (ms : List Member) (base k i : Nat) : Nat := base + k * sizeof ms + offset ms i

lemma address_add_le {i : Nat} (hi : i < ms.length) {l : Nat} (h : k < l) (j : Nat) :
    address ms base k i + ms[i].sizeof ≤ address ms base l j := by
  have hin := offset_add_le_sizeof hi
  have hmul : (k + 1) * sizeof ms ≤ l * sizeof ms := Nat.mul_le_mul_right _ h
  rw [Nat.succ_mul] at hmul
  unfold address
  omega

lemma address_add_le_next {i j : Nat} (hij : i < j) (hi : i < ms.length) (hj : j < ms.length) :
    address ms base k i + ms[i].sizeof ≤ address ms base k j := by
  have h := offset_add_le hij hi hj
  unfold address
  omega

/-- The members of the records of an array. -/
def members (ms : List Member) (base : Nat) : Cells (Nat × Fin ms.length) where
  start c := address ms base c.1 c.2
  size c := ms[c.2].sizeof
  apart := by
    rintro ⟨k, i⟩ ⟨l, j⟩ hne
    rcases Nat.lt_trichotomy k l with hkl | rfl | hkl
    · exact Or.inl (address_add_le i.2 hkl j)
    · rcases Nat.lt_trichotomy i.1 j.1 with hij | hij | hij
      · exact Or.inl (address_add_le_next hij i.2 j.2)
      · exact absurd (congrArg (Prod.mk k) (Fin.ext hij)) hne
      · exact Or.inr (address_add_le_next hij j.2 i.2)
    · exact Or.inr (address_add_le j.2 hkl i)

end Array

end RecordLayout
