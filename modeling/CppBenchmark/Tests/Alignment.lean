import CppBenchmark.Messages.MessageLayout

/-!
# Alignment of structures

The structures of the alignment test, with the sizes and the alignments that it asserts.
Two of them declare the same members in another order, and differ in length.
-/

namespace CppBenchmark

open RecordLayout

/-- A structure with its asserted `sizeof` and `std::alignment_of_v`. -/
structure StructDeclaration where
  packing : Packing
  members : List Member
  size : Nat
  alignment : Nat
  members_ne : members ≠ []
  size_eq : size = sizeof (packing.members members)
  alignment_eq : alignment = alignof (packing.members members)

namespace StructDeclaration

/-- The structure as a member or as the base class of another. -/
def asMember (s : StructDeclaration) : Member where
  sizeof := s.size
  logAlign := logAlign (s.packing.members s.members)
  dvd_sizeof := by
    rw [s.size_eq]
    exact alignof_dvd_sizeof _

/-- `std::byte` and `std::byte[N]` -/
def byte (N : Nat) : Member := Member.bytes N

def int16 : Member := Member.scalar 1

def int32 : Member := Member.scalar 2

def pointer : Member := Member.scalar 3

def longDouble : Member := Member.scalar 4

def alignment1 : StructDeclaration where
  packing := .defaultAlignment
  members := [byte 1, byte 1]
  size := 2
  alignment := 1
  members_ne := List.cons_ne_nil _ _
  size_eq := by decide
  alignment_eq := by decide

def alignment1Bis : StructDeclaration where
  packing := .defaultAlignment
  members := [byte 2]
  size := 2
  alignment := 1
  members_ne := List.cons_ne_nil _ _
  size_eq := by decide
  alignment_eq := by decide

/-- `Alignment1Packed` and `Alignment1PackedBis` -/
def alignment1Packed : StructDeclaration where
  packing := .packed
  members := [byte 1, int32, byte 1]
  size := 6
  alignment := 1
  members_ne := List.cons_ne_nil _ _
  size_eq := by decide
  alignment_eq := by decide

def alignment4 : StructDeclaration where
  packing := .defaultAlignment
  members := [int16, int32, byte 1]
  size := 12
  alignment := 4
  members_ne := List.cons_ne_nil _ _
  size_eq := by decide
  alignment_eq := by decide

def alignment4Bis : StructDeclaration where
  packing := .defaultAlignment
  members := [int32, int16, byte 1]
  size := 8
  alignment := 4
  members_ne := List.cons_ne_nil _ _
  size_eq := by decide
  alignment_eq := by decide

def alignment8 : StructDeclaration where
  packing := .defaultAlignment
  members := [pointer, pointer]
  size := 16
  alignment := 8
  members_ne := List.cons_ne_nil _ _
  size_eq := by decide
  alignment_eq := by decide

def alignment8Derived : StructDeclaration where
  packing := .defaultAlignment
  members := [alignment8.asMember, byte 1]
  size := 24
  alignment := 8
  members_ne := List.cons_ne_nil _ _
  size_eq := by decide
  alignment_eq := by decide

def alignment16 : StructDeclaration where
  packing := .defaultAlignment
  members := [longDouble]
  size := 16
  alignment := 16
  members_ne := List.cons_ne_nil _ _
  size_eq := by decide
  alignment_eq := by decide

section Order

variable {types types' : List Member}

lemma members_perm (packing : Packing) (h : types.Perm types') :
    (packing.members types).Perm (packing.members types') := by
  cases packing with
  | packed => exact h.map _
  | customPack logRequirement => exact h.map _
  | defaultAlignment => exact h

lemma members_sorted (packing : Packing)
    (h : types.Pairwise (fun a b => b.logAlign ≤ a.logAlign)) :
    (packing.members types).Pairwise (fun a b => b.logAlign ≤ a.logAlign) := by
  cases packing with
  | packed => exact h.map _ (fun _ _ hle => min_le_min_left 0 hle)
  | customPack logRequirement => exact h.map _ (fun _ _ hle => min_le_min_left logRequirement hle)
  | defaultAlignment => exact h

/-- A structure that declares its members by falling alignment is as long as its members
together, up to its alignment, and no order of the same members makes it shorter. -/
theorem size_le_of_sorted (s s' : StructDeclaration) (hpacking : s.packing = s'.packing)
    (hmembers : s.members.Perm s'.members)
    (hsorted : s.members.Pairwise (fun a b => b.logAlign ≤ a.logAlign)) :
    s.size = alignUp (sizes s.members).sum s.alignment ∧ s.size ≤ s'.size ∧
      s.alignment = s'.alignment := by
  have hperm : (s.packing.members s.members).Perm (s'.packing.members s'.members) := by
    rw [← hpacking]
    exact members_perm s.packing hmembers
  have hfall := members_sorted s.packing hsorted
  rw [s.size_eq, s'.size_eq, s.alignment_eq, s'.alignment_eq, ← s.packing.sizes_members s.members]
  exact ⟨sizeof_of_sorted hfall, sizeof_le_of_sorted hfall hperm, alignof_perm hperm⟩

theorem size_le_of_sorted_alignment4 :
    alignment4Bis.size = alignUp (sizes alignment4Bis.members).sum alignment4Bis.alignment ∧
      alignment4Bis.size ≤ alignment4.size ∧ alignment4Bis.alignment = alignment4.alignment :=
  size_le_of_sorted alignment4Bis alignment4 rfl (List.Perm.swap _ _ _) (by
    rw [alignment4Bis, List.pairwise_cons, List.pairwise_cons, List.pairwise_cons]
    decide)

/-- The structures of the test that waste nothing between their members. -/
example : ∀ s ∈ [alignment1, alignment1Bis, alignment1Packed, alignment4Bis, alignment8,
    alignment8Derived, alignment16], s.size = alignUp (sizes s.members).sum s.alignment := by
  decide

end Order

end StructDeclaration

end CppBenchmark
