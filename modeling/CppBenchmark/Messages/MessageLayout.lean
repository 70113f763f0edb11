import CppBenchmark.Properties.PropertyStreams

/-!
# Message layouts

A layout is declared by its list of properties, each with a getter and a setter for its
name and for its alias. How the members are packed is the choice of the declaring macro;
the getters and the setters work alike for all of them.
-/

namespace CppBenchmark

open ByteMemory History MemoryCells RecordLayout

/-- One entry of a property list: the type, the name and the alias. -/
structure PropertyDeclaration where
  type : PropertyType
  name : String
  aliasName : Option String

namespace PropertyDeclaration

def names (p : PropertyDeclaration) : List String := p.name :: p.aliasName.toList

def member (p : PropertyDeclaration) : Member := p.type.member

end PropertyDeclaration

/-- `DECLARE_MESSAGE_LAYOUT_PACKED`, `DECLARE_MESSAGE_LAYOUT_CUSTOM_PACK`, by the logarithm
of its requirement, and `DECLARE_MESSAGE_LAYOUT_DEFAULT_ALIGNMENT`. -/
inductive Packing
  | packed
  | customPack (logRequirement : Nat)
  | defaultAlignment

/-- The members as `#pragma pack` leaves them. -/
def Packing.members : Packing → List Member → List Member
  | .packed => pack 0
  | .customPack logRequirement => pack logRequirement
  | .defaultAlignment => id

/-- The packing changes no size. -/
lemma Packing.sizes_members (packing : Packing) (types : List Member) :
    sizes (packing.members types) = sizes types := by
  cases packing with
  | packed => exact sizes_pack 0 types
  | customPack logRequirement => exact sizes_pack logRequirement types
  | defaultAlignment => rfl

/-- A declared layout: no two accessors share a name, and the size is the declared one. -/
structure MessageLayout where
  name : String
  size : Nat
  packing : Packing
  properties : List PropertyDeclaration
  properties_ne : properties ≠ []
  names_nodup : (properties.flatMap PropertyDeclaration.names).Nodup
  size_eq : size = sizeof (packing.members (properties.map PropertyDeclaration.member))

namespace MessageLayout

variable (layout : MessageLayout)

def members : List Member :=
  layout.packing.members (layout.properties.map PropertyDeclaration.member)

lemma members_length : layout.members.length = layout.properties.length := by
  have h := congrArg List.length
    (layout.packing.sizes_members (layout.properties.map PropertyDeclaration.member))
  rwa [sizes, sizes, List.length_map, List.length_map, List.length_map] at h

/-- The members of the objects of an array of the layout at `this`. -/
def cells (this : Nat) : Cells (Nat × Fin layout.members.length) :=
  RecordLayout.members layout.members this

def property (i : Fin layout.members.length) : PropertyDeclaration :=
  layout.properties[Fin.cast layout.members_length i]

/-- The member behind `GetX` and `SetX` for the name `X`. -/
def accessor? (x : String) : Option (Fin layout.members.length) :=
  (layout.properties.findFinIdx? (fun p => p.names.contains x)).map
    (Fin.cast layout.members_length.symm)

/-- `GetX` of object number `object` of an array at `this`. -/
def get (this object : Nat) (x : String) (m : Memory) : Option (List UInt8) :=
  (layout.accessor? x).map (fun i => load (layout.cells this) (object, i) m)

/-- A call of `SetX` with a value of the property's type. -/
structure SetterCall where
  object : Nat
  x : String
  member : Fin layout.members.length
  declared : x ∈ (layout.property member).names
  value : List UInt8
  value_length : value.length = layout.members[member].sizeof

variable {layout}

def SetterCall.run (call : SetterCall layout) (this : Nat) (m : Memory) : Memory :=
  match layout.accessor? call.x with
  | some i => m.write ((layout.cells this).start (call.object, i)) call.value
  | none => m

def runSetters (calls : List (SetterCall layout)) (this : Nat) (m : Memory) : Memory :=
  calls.foldl (fun m call => call.run this m) m

section Accessors

variable {x : String} {i : Fin layout.members.length}

/-- Every name and every alias has the accessors of its own property. -/
lemma accessor?_eq (h : x ∈ (layout.property i).names) : layout.accessor? x = some i := by
  have hpairwise := (List.nodup_flatMap.mp layout.names_nodup).2
  have hfound : layout.properties.findFinIdx? (fun p => p.names.contains x) =
      some (Fin.cast layout.members_length i) := by
    rw [List.findFinIdx?_eq_some_iff]
    refine ⟨List.contains_iff_mem.mpr h, ?_⟩
    intro j hj hmem
    exact List.pairwise_iff_getElem.mp hpairwise _ _ _ _ hj (List.contains_iff_mem.mp hmem) h
  rw [accessor?, hfound]
  rfl

lemma get_eq (h : x ∈ (layout.property i).names) (this object : Nat) (m : Memory) :
    layout.get this object x m = some (load (layout.cells this) (object, i) m) := by
  rw [get, accessor?_eq h, Option.map_some]

def SetterCall.store (this : Nat) (call : SetterCall layout) : Store (layout.cells this) where
  cell := (call.object, call.member)
  value := call.value
  value_length := call.value_length

lemma SetterCall.run_eq (call : SetterCall layout) (this : Nat) (m : Memory) :
    call.run this m = (call.store this).apply m := by
  rw [SetterCall.run, accessor?_eq call.declared]
  rfl

lemma runSetters_eq (calls : List (SetterCall layout)) (this : Nat) (m : Memory) :
    runSetters calls this m = applyAll (calls.map (SetterCall.store this)) m := by
  unfold runSetters applyAll
  rw [List.foldl_map]
  simp only [SetterCall.run_eq]

end Accessors

section Runs

variable {x : String} {i : Fin layout.members.length}

/-- The value that the last of the calls for a property of an object sets. -/
def lastSet (calls : List (SetterCall layout)) (object : Nat) (i : Fin layout.members.length) :
    Option (List UInt8) :=
  (mostRecent (fun call => (call.object, call.member)) calls (object, i)).map SetterCall.value

lemma get_runSetters (calls : List (SetterCall layout)) (this object : Nat) (m : Memory)
    (hx : x ∈ (layout.property i).names) :
    layout.get this object x (runSetters calls this m) =
      (lastSet calls object i).or (layout.get this object x m) := by
  have hlast : (mostRecent Store.cell (calls.map (SetterCall.store this)) (object, i)).map
      Store.value = lastSet calls object i := by
    rw [mostRecent_map, Option.map_map]
    rfl
  rw [get_eq hx, get_eq hx, runSetters_eq, load_applyAll, hlast]
  cases lastSet calls object i with
  | none => rfl
  | some value => rfl

/-- After any setter calls on the objects of an array of any layout, each getter returns the
value last set through the name or the alias of its property, on its object, or what was
there before, and no byte outside the members that were set has changed. -/
theorem runSetters_correct (calls : List (SetterCall layout)) (this : Nat) (m : Memory) :
    (∀ object i, ∀ x ∈ (layout.property i).names,
      layout.get this object x (runSetters calls this m) =
        (lastSet calls object i).or (layout.get this object x m)) ∧
    ∀ a, (∀ call ∈ calls, a < (layout.cells this).start (call.object, call.member) ∨
      (layout.cells this).start (call.object, call.member) +
        layout.members[call.member].sizeof ≤ a) → runSetters calls this m a = m a := by
  refine ⟨fun object i x hx => get_runSetters calls this object m hx, ?_⟩
  intro a ha
  rw [runSetters_eq]
  exact applyAll_outside _ m (List.forall_mem_map.mpr ha)

end Runs

section Sizes

/-- A layout is the least placement that keeps its properties in order, apart and aligned as
far as its packing asks for, with room for whole objects side by side. -/
theorem members_least (layout : MessageLayout) :
    Placed 0 layout.members (offsetsFrom 0 layout.members) layout.size ∧
      alignof layout.members ∣ layout.size ∧
      ∀ os stop, Placed 0 layout.members os stop → alignof layout.members ∣ stop →
        List.Forall₂ (· ≤ ·) (offsetsFrom 0 layout.members) os ∧ layout.size ≤ stop := by
  rw [layout.size_eq]
  exact ⟨placed_sizeof layout.members, alignof_dvd_sizeof layout.members,
    fun os stop hplaced hstop => sizeof_least hplaced hstop⟩

/-- Packed layouts are as long as their properties, a smaller requirement never makes a
layout longer, and none is longer than with default alignment. -/
theorem sizeof_packing (types : List Member) {log log' : Nat} (hlog : log ≤ log') :
    sizeof (Packing.packed.members types) = (types.map Member.sizeof).sum ∧
      sizeof (Packing.packed.members types) ≤ sizeof ((Packing.customPack log).members types) ∧
      sizeof ((Packing.customPack log).members types) ≤
        sizeof ((Packing.customPack log').members types) ∧
      sizeof ((Packing.customPack log').members types) ≤
        sizeof (Packing.defaultAlignment.members types) :=
  ⟨(pack_zero_packed types).1, sizeof_pack_mono (Nat.zero_le log), sizeof_pack_mono hlog,
    sizeof_pack_le log' types⟩

end Sizes

open PropertyType

def exampledPacketMessage : MessageLayout where
  name := "ExampledPacketMessage"
  size := 20
  packing := .packed
  properties := [⟨unsigned 2, "Id", some "ID"⟩, ⟨unsigned 3, "Price", none⟩,
    ⟨unsigned 3, "Quantity", none⟩]
  properties_ne := List.cons_ne_nil _ _
  names_nodup := by decide
  size_eq := by decide

def exampleCustomPaddingMessage : MessageLayout where
  name := "ExampleCustomPaddingMessage"
  size := 22
  packing := .customPack 1
  properties := [⟨unsigned 2, "Id", some "ID"⟩, ⟨unsigned 3, "Price", none⟩,
    ⟨unsigned 3, "Quantity", none⟩, ⟨character, "Flag", none⟩]
  properties_ne := List.cons_ne_nil _ _
  names_nodup := by decide
  size_eq := by decide

def exampleDefaultAlignmentMessage : MessageLayout where
  name := "ExampleDefaultAlignmentMessage"
  size := 24
  packing := .defaultAlignment
  properties := [⟨unsigned 2, "Id", some "ID"⟩, ⟨unsigned 3, "Price", none⟩,
    ⟨unsigned 3, "Quantity", none⟩]
  properties_ne := List.cons_ne_nil _ _
  names_nodup := by decide
  size_eq := by decide

/-- With a requirement of 2 bytes the custom message takes no more room than with one of 4. -/
theorem sizeof_packing_customPadding :
    sizeof ((Packing.customPack 1).members
        (exampleCustomPaddingMessage.properties.map PropertyDeclaration.member)) ≤
      sizeof ((Packing.customPack 2).members
        (exampleCustomPaddingMessage.properties.map PropertyDeclaration.member)) :=
  (sizeof_packing (exampleCustomPaddingMessage.properties.map PropertyDeclaration.member)
    (Nat.le_succ 1)).2.2.1

/-- The same properties, packed and with default alignment. -/
example : exampledPacketMessage.properties = exampleDefaultAlignmentMessage.properties ∧
    exampledPacketMessage.size < exampleDefaultAlignmentMessage.size :=
  ⟨rfl, by decide⟩

end MessageLayout

end CppBenchmark
