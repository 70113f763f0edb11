import CppBenchmark.Messages.MessageLayout

/-!
# Streaming layouts

`DEFINE_LAYOUT_STREAM` prints the name of a layout and, in brackets, the name and the value
of each property. The text of any objects streamed one after the other shows how many there
are and, of each, all that its properties print.
-/

namespace CppBenchmark

open ByteMemory MemoryCells OutputStream OutputStream.Stream DelimitedText RecordLayout

namespace MessageLayout

variable (layout : MessageLayout)

/-- The value that `GetX` returns for the object at `this`. -/
def value (this : Nat) (m : Memory) (x : String) : List UInt8 := (layout.get this 0 x m).getD []

/-- The properties, each behind the literal that is inserted before its value. -/
def labelled : List (String × PropertyDeclaration) :=
  match layout.properties with
  | [] => []
  | first :: rest => (layout.name ++ " [" ++ first.name ++ "=", first) ::
      rest.map (fun p => (" | " ++ p.name ++ "=", p))

/-- An object by where it is and the memory at the time. -/
structure Snapshot where
  this : Nat
  memory : Memory

def streamFields : List (StreamField Snapshot) :=
  layout.labelled.map (fun q => ⟨q.1.toList,
    fun object => q.2.type.stream (layout.value object.this object.memory q.2.name)⟩)

/-- `operator<<` of a layout. -/
def stream (object : Snapshot) (os : Stream) : Stream :=
  streamRecord [']'] layout.streamFields object os

def streamAll (objects : List Snapshot) (os : Stream) : Stream :=
  objects.foldl (fun os object => layout.stream object os) os

/-- What each property of a layout shows of its bytes. -/
def Shows (shown : List (List UInt8 → List UInt8)) : Prop :=
  List.Forall₂ (fun (p : PropertyDeclaration) s => p.type.Shows s) layout.properties shown

/-- Two objects agree in all that the properties show. -/
def SameShown (shown : List (List UInt8 → List UInt8)) (a b : Snapshot) : Prop :=
  ∀ q ∈ layout.properties.zip shown, q.2 (layout.value a.this a.memory q.1.name) =
    q.2 (layout.value b.this b.memory q.1.name)

section Text

variable {layout} {shown : List (List UInt8 → List UInt8)} {base : Base}

lemma map_labelled : layout.labelled.map Prod.snd = layout.properties := by
  unfold labelled
  cases layout.properties with
  | nil => rfl
  | cons first rest =>
    rw [List.map_cons, List.map_map]
    exact congrArg (first :: ·) (List.map_id rest)

lemma mem_properties {q : String × PropertyDeclaration} (hq : q ∈ layout.labelled) :
    q.2 ∈ layout.properties := by
  rw [← map_labelled]
  exact List.mem_map_of_mem hq

lemma exists_mem_zip {α β : Type*} {R : α → β → Prop} {l : List α} {l' : List β}
    (h : List.Forall₂ R l l') {a : α} (ha : a ∈ l) : ∃ b, (a, b) ∈ l.zip l' := by
  induction h with
  | nil => exact absurd ha List.not_mem_nil
  | @cons a' b l l' _ _ ih =>
    rcases List.mem_cons.mp ha with rfl | ha
    · exact ⟨b, List.mem_cons_self⟩
    · obtain ⟨c, hc⟩ := ih ha
      exact ⟨c, List.mem_cons_of_mem _ hc⟩

lemma Shows.exists_shows (h : layout.Shows shown) {p : PropertyDeclaration}
    (hp : p ∈ layout.properties) : ∃ s, p.type.Shows s := by
  obtain ⟨s, hs⟩ := exists_mem_zip h hp
  exact ⟨s, List.forall₂_zip h hs⟩

lemma sizes_members (layout : MessageLayout) :
    sizes layout.members = layout.properties.map (fun p => p.type.member.sizeof) := by
  rw [members, Packing.sizes_members, sizes, List.map_map]
  rfl

lemma sizeof_members {i : Nat} (hi : i < layout.members.length) :
    layout.members[i].sizeof = (layout.property ⟨i, hi⟩).type.member.sizeof := by
  have hi' : i < layout.properties.length := hi.trans_eq layout.members_length
  have h := congrArg (fun sizes => sizes[i]?) (sizes_members layout)
  dsimp only [sizes] at h
  rw [List.getElem?_map, List.getElem?_map, List.getElem?_eq_getElem hi,
    List.getElem?_eq_getElem hi'] at h
  exact Option.some.inj h

lemma length_value (this : Nat) (m : Memory) {p : PropertyDeclaration}
    (hp : p ∈ layout.properties) : (layout.value this m p.name).length = p.type.member.sizeof := by
  obtain ⟨i, hi, rfl⟩ := List.getElem_of_mem hp
  let j : Fin layout.members.length := ⟨i, hi.trans_eq layout.members_length.symm⟩
  have hname : (layout.properties[i]).name ∈ (layout.property j).names := List.mem_cons_self
  rw [value, get_eq hname, Option.getD_some, load, Memory.read_length]
  exact sizeof_members j.2

/-- The properties of a packed layout are the fields of the bytes of an object. -/
lemma value_packed (hpacked : layout.packing = .packed) (this : Nat) (m : Memory)
    (i : Fin layout.members.length) :
    layout.value this m (layout.property i).name =
      PackedLayout.field (sizes layout.members) (m.read this layout.size) i := by
  have hname : (layout.property i).name ∈ (layout.property i).names := List.mem_cons_self
  have hmembers : pack 0 layout.members = layout.members := by
    rw [members, hpacked]
    exact pack_pack le_rfl
  obtain ⟨hsize, hoffset⟩ := pack_zero_packed layout.members
  have hlayout : layout.size = PackedLayout.sizeof (sizes layout.members) := by
    rw [← hsize, hmembers, layout.size_eq]
    rfl
  have hlength : i.1 < (sizes layout.members).length := i.2.trans_eq (List.length_map _).symm
  have hi := hoffset i i.2
  rw [hmembers] at hi
  rw [value, get_eq hname, Option.getD_some, hlayout, PackedLayout.field_read m this hlength, ← hi,
    List.getD_eq_getElem _ _ hlength]
  change m.read (this + 0 * sizeof layout.members + offset layout.members i)
    layout.members[i].sizeof = _
  rw [Nat.zero_mul, Nat.add_zero]
  congr 1
  exact (List.getElem_map Member.sizeof).symm

lemma readable_streamFields (h : layout.Shows shown) :
    ∀ field ∈ layout.streamFields, Readable field.insert := by
  unfold streamFields
  rw [List.forall_mem_map]
  intro q hq
  obtain ⟨s, hs⟩ := h.exists_shows (mem_properties hq)
  exact hs.readable.comp _

lemma separated_streamFields (layout : MessageLayout) : Separated [']'] layout.streamFields where
  close_ne := List.cons_ne_nil _ _
  close_delimited := delimited_cons rfl []
  label_ne := by
    unfold streamFields labelled
    cases layout.properties with
    | nil => exact fun field hfield => absurd hfield List.not_mem_nil
    | cons first rest => simp
  label_delimited := by
    unfold streamFields labelled
    cases layout.properties with
    | nil => exact fun field hfield => absurd hfield List.not_mem_nil
    | cons first rest =>
      simp only [List.map_cons, List.tail_cons, List.map_map, List.forall_mem_map]
      intro p _
      have hlabel : (" | " ++ p.name ++ "=").toList = ' ' :: ("| " ++ p.name ++ "=").toList := by
        simp [String.toList_append]
      change Delimited isWord (" | " ++ p.name ++ "=").toList
      rw [hlabel]
      exact delimited_cons rfl _

lemma sameShown_iff (h : layout.Shows shown) (a b : Snapshot) :
    layout.SameShown shown a b ↔
      ∀ field ∈ layout.streamFields, textAt base (field.insert a) = textAt base (field.insert b) := by
  unfold streamFields
  rw [List.forall_mem_map]
  constructor
  · intro hsame q hq
    obtain ⟨s, hs⟩ := exists_mem_zip h (mem_properties hq)
    have hshows := List.forall₂_zip h hs
    exact (hshows.text_eq_iff base _ _ (length_value _ _ (mem_properties hq))
      (length_value _ _ (mem_properties hq))).mpr (hsame _ hs)
  · rintro hinsert ⟨p, s⟩ hs
    have hshows := List.forall₂_zip h hs
    have hp := (List.of_mem_zip hs).1
    rw [← map_labelled, List.mem_map] at hp
    obtain ⟨q, hq, rfl⟩ := hp
    exact (hshows.text_eq_iff base _ _ (length_value _ _ (mem_properties hq))
      (length_value _ _ (mem_properties hq))).mp (hinsert q hq)

/-- In a stream in which only the base and the fill character may have been set, the text of
objects streamed one after the other is that of other objects exactly when they are equally
many and agree in all that their layout shows. -/
theorem text_streamAll_eq_iff (layout : MessageLayout) {shown : List (List UInt8 → List UInt8)}
    (h : layout.Shows shown) (os : Stream) (hos : os.format.Plain) (as bs : List Snapshot) :
    (layout.streamAll as os).text = (layout.streamAll bs os).text ↔
      List.Forall₂ (layout.SameShown shown) as bs := by
  have hsame : layout.SameShown shown = fun a b => ∀ field ∈ layout.streamFields,
      textAt os.format.flags.base (field.insert a) =
        textAt os.format.flags.base (field.insert b) := by
    funext a b
    exact propext (sameShown_iff h a b)
  rw [hsame]
  exact text_streamRecords_eq_iff (separated_streamFields layout) (readable_streamFields h) hos as bs

/-- A buffer of zeros whose `Id` is set to 42. -/
example :
    let call : SetterCall exampledPacketMessage :=
      ⟨0, "Id", ⟨0, by decide⟩, by decide, toBytesLE 4 42, by decide⟩
    (exampledPacketMessage.stream ⟨0, call.run 0 (fun _ => 0)⟩ ⟨Format.default, []⟩).text =
      "ExampledPacketMessage [Id=42 | Price=0 | Quantity=0]".toList := by
  decide

end Text

end MessageLayout

end CppBenchmark
