import CppBenchmark.Messages.LayoutStream
import CppBenchmark.Network.Headers
import CppBenchmark.Network.TCPHeader

/-!
# Streaming headers

The layouts of the network headers with the types of their properties. What is streamed of
a header leaves out the byte fillers, and of the data offset with the flags of TCP the low
half of its first byte.
-/

namespace CppBenchmark

open ByteMemory OutputStream OutputStream.Stream DelimitedText RecordLayout PropertyType

section Operators

/-- `operator<<` of `VersionWithInternetHeaderLength`: the version is a `std::uint8_t`. -/
def VersionWithInternetHeaderLength.streamFields :
    List (StreamField VersionWithInternetHeaderLength) :=
  [⟨"[Version=".toList, fun v => insertChar (Char.ofNat v.getVersion)⟩,
    ⟨" | InternetHeaderLength=".toList, fun v => insertUnsigned v.getInternetHeaderLength⟩]

/-- `operator<<` of `DataOffSetWithFlags` -/
def DataOffSetWithFlags.streamFields : List (StreamField DataOffSetWithFlags) :=
  [⟨"[DataOffset=".toList, fun flags => insertUnsigned flags.getDataOffset⟩,
    ⟨" | NS=".toList, fun flags => insertBool flags.getNS⟩,
    ⟨" | CWR=".toList, fun flags => insertBool flags.getCWR⟩,
    ⟨" | ECE=".toList, fun flags => insertBool flags.getECE⟩,
    ⟨" | URG=".toList, fun flags => insertBool flags.getURG⟩,
    ⟨" | ACK=".toList, fun flags => insertBool flags.getACK⟩,
    ⟨" | PSH=".toList, fun flags => insertBool flags.getPSH⟩,
    ⟨" | RST=".toList, fun flags => insertBool flags.getRST⟩,
    ⟨" | SYN=".toList, fun flags => insertBool flags.getSYN⟩,
    ⟨" | FIN=".toList, fun flags => insertBool flags.getFIN⟩]

end Operators

namespace PropertyType

/-- `Property<VersionWithInternetHeaderLength>` -/
def versionWithInternetHeaderLength : PropertyType where
  member := Member.bytes 1
  stream bytes := streamRecord [']'] VersionWithInternetHeaderLength.streamFields
    (VersionWithInternetHeaderLength.ofBytes bytes)

/-- `Property<DataOffSetWithFlags>` -/
def dataOffSetWithFlags : PropertyType where
  member := Member.bytes 2
  stream bytes := streamRecord [']'] DataOffSetWithFlags.streamFields
    (DataOffSetWithFlags.ofBytes bytes)

section Shows

variable {α : Type*} {base : Base}

lemma readable_insertUnsigned (f : α → Nat) : Readable (fun a => insertUnsigned (f a)) :=
  readable_of_render (fun a => prints_insertUnsigned (f a))
    (fun _ => selfDelimiting_of_word (fun _ _ hc => isWord_toDigits hc))

lemma readable_insertBool (f : α → Bool) : Readable (fun a => insertBool (f a)) :=
  readable_insertUnsigned (fun a => (f a).toNat)

lemma readable_insertChar (f : α → Char) : Readable (fun a => insertChar (f a)) :=
  readable_of_render (fun a => prints_insertChar (f a))
    (fun _ => selfDelimiting_of_length (fun _ _ => rfl))

lemma textAt_insertUnsigned_inj {n m : Nat} :
    textAt base (insertUnsigned n) = textAt base (insertUnsigned m) ↔ n = m := by
  rw [(prints_insertUnsigned n).textAt_eq, (prints_insertUnsigned m).textAt_eq]
  exact ⟨toDigits_inj, fun h => by rw [h]⟩

lemma textAt_insertBool_inj {b c : Bool} :
    textAt base (insertBool b) = textAt base (insertBool c) ↔ b = c := by
  unfold insertBool
  rw [textAt_insertUnsigned_inj]
  cases b <;> cases c <;> decide

lemma textAt_insertChar_inj {c d : Char} :
    textAt base (insertChar c) = textAt base (insertChar d) ↔ c = d := by
  rw [(prints_insertChar c).textAt_eq, (prints_insertChar d).textAt_eq, List.singleton_inj]

lemma ofNat_nibble_inj : ∀ n < 16, ∀ m < 16, Char.ofNat n = Char.ofNat m → n = m := by
  decide

lemma getVersion_lt (v : VersionWithInternetHeaderLength) : v.getVersion < 16 := by
  have h := v.value.toNat_lt
  unfold VersionWithInternetHeaderLength.getVersion
  rw [Nat.shiftRight_eq_div_pow]
  omega

/-- The version and the length are the halves of the byte. -/
lemma version_length_inj {v w : VersionWithInternetHeaderLength}
    (hversion : v.getVersion = w.getVersion)
    (hlength : v.getInternetHeaderLength = w.getInternetHeaderLength) : v.value = w.value := by
  unfold VersionWithInternetHeaderLength.getVersion at hversion
  unfold VersionWithInternetHeaderLength.getInternetHeaderLength at hlength
  rw [Nat.shiftRight_eq_div_pow, Nat.shiftRight_eq_div_pow] at hversion
  rw [Nat.and_comm, Nat.and_comm 0xf, Nat.and_two_pow_sub_one_eq_mod _ 4,
    Nat.and_two_pow_sub_one_eq_mod _ 4] at hlength
  apply UInt8.toNat_inj.mp
  omega

lemma separated_version : Separated [']'] VersionWithInternetHeaderLength.streamFields where
  close_ne := List.cons_ne_nil _ _
  close_delimited := delimited_cons rfl []
  label_ne := by simp [VersionWithInternetHeaderLength.streamFields]
  label_delimited := by
    simp only [VersionWithInternetHeaderLength.streamFields, List.tail_cons, List.forall_mem_singleton]
    exact delimited_cons rfl _

lemma readable_version : ∀ field ∈ VersionWithInternetHeaderLength.streamFields,
    Readable field.insert := by
  simp only [VersionWithInternetHeaderLength.streamFields, List.forall_mem_cons]
  exact ⟨readable_insertChar _, readable_insertUnsigned _, fun _ h => absurd h List.not_mem_nil⟩

lemma shows_versionWithInternetHeaderLength : versionWithInternetHeaderLength.Shows id where
  readable := (readable_streamRecord separated_version readable_version).comp
    VersionWithInternetHeaderLength.ofBytes
  text_eq_iff base a b ha hb := by
    obtain ⟨x, rfl⟩ := List.length_eq_one_iff.mp ha
    obtain ⟨y, rfl⟩ := List.length_eq_one_iff.mp hb
    refine (textAt_streamRecord_eq_iff separated_version readable_version _ _).trans ?_
    constructor
    · intro h
      simp only [VersionWithInternetHeaderLength.streamFields, List.forall_mem_cons,
        textAt_insertChar_inj, textAt_insertUnsigned_inj] at h
      obtain ⟨hversion, hlength, -⟩ := h
      have hnibbles := ofNat_nibble_inj _ (getVersion_lt _) _ (getVersion_lt _) hversion
      exact congrArg (fun z => [z]) (version_length_inj hnibbles hlength)
    · intro h
      change [x] = [y] at h
      rw [h]
      exact fun _ _ => rfl

/-- The first half of the first byte and the control bits. -/
def shownOffset (bytes : List UInt8) : List UInt8 := [bytes.getD 0 0 >>> 4, bytes.getD 1 0]

lemma getBit_inj {b c : UInt8} (h : ∀ i < 8, getBit b i = getBit c i) : b = c := by
  apply UInt8.toNat_inj.mp
  apply Nat.eq_of_testBit_eq
  intro i
  by_cases hi : i < 8
  · have hbit := h i hi
    rwa [getBit_eq, getBit_eq, ← Nat.testBit_eq_decide_div_mod_eq,
      ← Nat.testBit_eq_decide_div_mod_eq] at hbit
  · have hpow : 2 ^ 8 ≤ 2 ^ i := Nat.pow_le_pow_right (by norm_num) (by omega)
    rw [Nat.testBit_lt_two_pow (b.toNat_lt.trans_le hpow),
      Nat.testBit_lt_two_pow (c.toNat_lt.trans_le hpow)]

lemma dataOffset_inj {v w : DataOffSetWithFlags} : v.getDataOffset = w.getDataOffset ↔
    v.dataOffsetWithNS >>> 4 = w.dataOffsetWithNS >>> 4 := by
  rw [← UInt8.toNat_inj, UInt8.toNat_shiftRight, UInt8.toNat_shiftRight]
  rfl

/-- NS is read from the data offset. -/
lemma getNS_congr {v w : DataOffSetWithFlags} (h : v.getDataOffset = w.getDataOffset) :
    v.getNS = w.getNS := by
  unfold DataOffSetWithFlags.getDataOffset at h
  unfold DataOffSetWithFlags.getNS
  rw [Nat.shiftRight_eq_div_pow, Nat.shiftRight_eq_div_pow] at h
  rw [getBit_eq, getBit_eq, decide_eq_decide]
  have hv := v.dataOffsetWithNS.toNat_lt
  have hw := w.dataOffsetWithNS.toNat_lt
  omega

lemma separated_dataOffset : Separated [']'] DataOffSetWithFlags.streamFields where
  close_ne := List.cons_ne_nil _ _
  close_delimited := delimited_cons rfl []
  label_ne := by simp [DataOffSetWithFlags.streamFields]
  label_delimited := by
    simp only [DataOffSetWithFlags.streamFields, List.tail_cons, List.forall_mem_cons]
    exact ⟨delimited_cons rfl _, delimited_cons rfl _, delimited_cons rfl _, delimited_cons rfl _,
      delimited_cons rfl _, delimited_cons rfl _, delimited_cons rfl _, delimited_cons rfl _,
      delimited_cons rfl _, fun _ h => absurd h List.not_mem_nil⟩

lemma readable_dataOffset : ∀ field ∈ DataOffSetWithFlags.streamFields, Readable field.insert := by
  simp only [DataOffSetWithFlags.streamFields, List.forall_mem_cons]
  exact ⟨readable_insertUnsigned _, readable_insertBool _, readable_insertBool _,
    readable_insertBool _, readable_insertBool _, readable_insertBool _, readable_insertBool _,
    readable_insertBool _, readable_insertBool _, readable_insertBool _,
    fun _ h => absurd h List.not_mem_nil⟩

lemma shows_dataOffSetWithFlags : dataOffSetWithFlags.Shows shownOffset where
  readable := (readable_streamRecord separated_dataOffset readable_dataOffset).comp
    DataOffSetWithFlags.ofBytes
  text_eq_iff base a b _ _ := by
    refine (textAt_streamRecord_eq_iff separated_dataOffset readable_dataOffset _ _).trans ?_
    simp only [DataOffSetWithFlags.streamFields, List.forall_mem_cons, textAt_insertUnsigned_inj,
      textAt_insertBool_inj]
    unfold shownOffset
    constructor
    · rintro ⟨hoffset, -, h0, h1, h2, h3, h4, h5, h6, h7, -⟩
      have hcontrol : a.getD 1 0 = b.getD 1 0 := by
        apply getBit_inj
        intro i hi
        interval_cases i
        exacts [h0, h1, h2, h3, h4, h5, h6, h7]
      have hhigh : a.getD 0 0 >>> 4 = b.getD 0 0 >>> 4 := dataOffset_inj.mp hoffset
      rw [hcontrol, hhigh]
    · intro h
      obtain ⟨hhigh, hlow⟩ := List.cons.inj h
      have hoffset := (@dataOffset_inj (.ofBytes a) (.ofBytes b)).mpr hhigh
      have hbit : ∀ i, getBit (a.getD 1 0) i = getBit (b.getD 1 0) i := by
        intro i
        rw [List.singleton_inj.mp hlow]
      exact ⟨hoffset, getNS_congr hoffset, hbit 0, hbit 1, hbit 2, hbit 3, hbit 4, hbit 5, hbit 6,
        hbit 7, fun _ h => absurd h List.not_mem_nil⟩

end Shows

end PropertyType

section Layouts

def ethernetFrameLayout : MessageLayout where
  name := "EthernetFrame"
  size := 14
  packing := .packed
  properties := [⟨characters 6, "DestinationAddress", none⟩, ⟨characters 6, "SourceAddress", none⟩,
    ⟨swapped 1, "EthernetType", some "Length"⟩]
  properties_ne := List.cons_ne_nil _ _
  names_nodup := by decide
  size_eq := by decide

def ipv4HeaderLayout : MessageLayout where
  name := "IPv4Header"
  size := 20
  packing := .packed
  properties := [⟨versionWithInternetHeaderLength, "VersionWithInternetHeaderLength",
      some "VersionWithIHL"⟩, ⟨byteFiller 1, "DSCPWithECN", none⟩, ⟨swapped 1, "TotalLength", none⟩,
    ⟨swapped 1, "Identification", none⟩, ⟨byteFiller 2, "FlagsWithFragmentOffset", none⟩,
    ⟨character, "TimeToLive", some "TTL"⟩, ⟨character, "Protocol", none⟩,
    ⟨swapped 1, "HeaderChecksum", none⟩, ⟨swapped 2, "SourceIPAddress", none⟩,
    ⟨swapped 2, "DestinationIPAddress", none⟩]
  properties_ne := List.cons_ne_nil _ _
  names_nodup := by decide
  size_eq := by decide

def tcpHeaderLayout : MessageLayout where
  name := "TCPHeader"
  size := 20
  packing := .packed
  properties := [⟨swapped 1, "SourcePort", none⟩, ⟨swapped 1, "DestinationPort", none⟩,
    ⟨swapped 2, "SequenceNumber", none⟩, ⟨swapped 2, "AcknowledgmentNumber", none⟩,
    ⟨dataOffSetWithFlags, "DataOffSetWithFlags", none⟩, ⟨swapped 1, "WindowSize", none⟩,
    ⟨swapped 1, "CheckSum", none⟩, ⟨swapped 1, "UrgentPointer", none⟩]
  properties_ne := List.cons_ne_nil _ _
  names_nodup := by decide
  size_eq := by decide

def udpHeaderLayout : MessageLayout where
  name := "UDPHeader"
  size := 8
  packing := .packed
  properties := [⟨swapped 1, "SourcePort", none⟩, ⟨swapped 1, "DestinationPort", none⟩,
    ⟨swapped 1, "Length", none⟩, ⟨swapped 1, "Checksum", none⟩]
  properties_ne := List.cons_ne_nil _ _
  names_nodup := by decide
  size_eq := by decide

def pcapHeaderLayout : MessageLayout where
  name := "PcapHeader"
  size := 24
  packing := .packed
  properties := [⟨unsigned 2, "MagicNumber", none⟩, ⟨unsigned 1, "MajorVersion", none⟩,
    ⟨unsigned 1, "MinorVersion", none⟩, ⟨signed 2, "TimezoneOffset", none⟩,
    ⟨unsigned 2, "TimestampAccuracy", none⟩, ⟨unsigned 2, "SnapshotLength", none⟩,
    ⟨unsigned 2, "LinkLayerType", none⟩]
  properties_ne := List.cons_ne_nil _ _
  names_nodup := by decide
  size_eq := by decide

def recordHeaderLayout : MessageLayout where
  name := "RecordHeader"
  size := 16
  packing := .packed
  properties := [⟨unsigned 2, "TimestampSeconds", none⟩, ⟨unsigned 2, "TimestampMicroseconds", none⟩,
    ⟨unsigned 2, "ByteRecordedInFileLength", some "Length"⟩, ⟨unsigned 2, "OriginLength", none⟩]
  properties_ne := List.cons_ne_nil _ _
  names_nodup := by decide
  size_eq := by decide

/-- What a byte filler shows. -/
def nothing (_ : List UInt8) : List UInt8 := []

/-- The layouts of the headers, with what each property shows. -/
def headerLayouts : List (MessageLayout × List (List UInt8 → List UInt8)) :=
  [(ethernetFrameLayout, [id, id, id]),
    (ipv4HeaderLayout, [id, nothing, id, id, nothing, id, id, id, id, id]),
    (tcpHeaderLayout, [id, id, id, id, shownOffset, id, id, id]),
    (udpHeaderLayout, [id, id, id, id]),
    (pcapHeaderLayout, [id, id, id, id, id, id, id]),
    (recordHeaderLayout, [id, id, id, id])]

lemma headerLayouts_show : ∀ entry ∈ headerLayouts, entry.1.Shows entry.2 := by
  simp only [headerLayouts, List.forall_mem_cons]
  have hend : List.Forall₂ (fun (p : PropertyDeclaration) s => p.type.Shows s) [] [] := .nil
  refine ⟨?_, ?_, ?_, ?_, ?_, ?_, fun _ h => absurd h List.not_mem_nil⟩
  · exact .cons (shows_characters 6) (.cons (shows_characters 6) (.cons (shows_swapped 1) hend))
  · exact .cons shows_versionWithInternetHeaderLength (.cons (shows_byteFiller 1)
      (.cons (shows_swapped 1) (.cons (shows_swapped 1) (.cons (shows_byteFiller 2)
      (.cons shows_character (.cons shows_character (.cons (shows_swapped 1)
      (.cons (shows_swapped 2) (.cons (shows_swapped 2) hend)))))))))
  · exact .cons (shows_swapped 1) (.cons (shows_swapped 1) (.cons (shows_swapped 2)
      (.cons (shows_swapped 2) (.cons shows_dataOffSetWithFlags (.cons (shows_swapped 1)
      (.cons (shows_swapped 1) (.cons (shows_swapped 1) hend)))))))
  · exact .cons (shows_swapped 1) (.cons (shows_swapped 1) (.cons (shows_swapped 1)
      (.cons (shows_swapped 1) hend)))
  · exact .cons (shows_unsigned 2) (.cons (shows_unsigned 1) (.cons (shows_unsigned 1)
      (.cons (shows_signed 2) (.cons (shows_unsigned 2) (.cons (shows_unsigned 2)
      (.cons (shows_unsigned 2) hend))))))
  · exact .cons (shows_unsigned 2) (.cons (shows_unsigned 2) (.cons (shows_unsigned 2)
      (.cons (shows_unsigned 2) hend)))

/-- In a stream in which only the base and the fill character may have been set, headers of a
layout print alike exactly when they agree in every property, a byte filler left out and the
low half of the first byte of a data offset. -/
theorem headers_text_eq_iff (entry : MessageLayout × List (List UInt8 → List UInt8))
    (hentry : entry ∈ headerLayouts) (os : Stream) (hos : os.format.Plain)
    (as bs : List MessageLayout.Snapshot) :
    (entry.1.streamAll as os).text = (entry.1.streamAll bs os).text ↔
      List.Forall₂ (entry.1.SameShown entry.2) as bs :=
  MessageLayout.text_streamAll_eq_iff entry.1 (headerLayouts_show entry hentry) os hos as bs

/-- A TCP header by its source port and the first byte of its data offset. -/
def tcpSnapshot (sourcePort offset : UInt8) : MessageLayout.Snapshot :=
  ⟨4096, Memory.write (fun _ => 0) 4096
    [0, sourcePort, 0, 80, 0, 0, 0, 1, 0, 0, 0, 0, offset, 0x12, 0, 0, 0, 0, 0, 0]⟩

/-- In base sixteen the low half of the first byte of the offset does not show, the order of
the headers does. -/
theorem headers_text_eq_iff_tcp :
    let os : Stream := ⟨{ Format.default with flags.base := .hex, fill := '*' }, []⟩
    (tcpHeaderLayout.streamAll [tcpSnapshot 20 0x50, tcpSnapshot 21 0x60] os).text =
        (tcpHeaderLayout.streamAll [tcpSnapshot 20 0x5f, tcpSnapshot 21 0x60] os).text ∧
      (tcpHeaderLayout.streamAll [tcpSnapshot 20 0x50, tcpSnapshot 21 0x60] os).text ≠
        (tcpHeaderLayout.streamAll [tcpSnapshot 21 0x60, tcpSnapshot 20 0x50] os).text := by
  intro os
  have hentry : (tcpHeaderLayout, [id, id, id, id, shownOffset, id, id, id]) ∈ headerLayouts := by
    simp [headerLayouts]
  have hsame := headers_text_eq_iff _ hentry os ⟨rfl, rfl, rfl⟩
  rw [hsame, Ne, hsame]
  constructor
  · have hfirst : tcpHeaderLayout.SameShown [id, id, id, id, shownOffset, id, id, id]
        (tcpSnapshot 20 0x50) (tcpSnapshot 20 0x5f) := by
      unfold MessageLayout.SameShown
      decide +kernel
    exact .cons hfirst (.cons (fun _ _ => rfl) .nil)
  · intro hswapped
    have hports : ¬tcpHeaderLayout.SameShown [id, id, id, id, shownOffset, id, id, id]
        (tcpSnapshot 20 0x50) (tcpSnapshot 21 0x60) := by
      unfold MessageLayout.SameShown
      decide +kernel
    cases hswapped with
    | cons hfirst _ => exact hports hfirst

lemma headerLayouts_packed : ∀ entry ∈ headerLayouts, entry.1.packing = .packed := by
  simp only [headerLayouts, List.forall_mem_cons]
  exact ⟨rfl, rfl, rfl, rfl, rfl, rfl, fun _ h => absurd h List.not_mem_nil⟩

/-- The properties of a header are the fields of its bytes, as its accessors read them. -/
theorem headers_value_eq_field (entry : MessageLayout × List (List UInt8 → List UInt8))
    (hentry : entry ∈ headerLayouts) (this : Nat) (m : Memory) (i : Fin entry.1.members.length) :
    entry.1.value this m (entry.1.property i).name =
      PackedLayout.field (sizes entry.1.members) (m.read this entry.1.size) i :=
  MessageLayout.value_packed (headerLayouts_packed entry hentry) this m i

/-- The sizes are those by which the accessors of the headers read. -/
theorem sizes_headerLayouts :
    sizes ethernetFrameLayout.members = EthernetFrameLayout.sizes ∧
      sizes ipv4HeaderLayout.members = IPv4HeaderLayout.sizes ∧
      sizes tcpHeaderLayout.members = TCPHeaderLayout.sizes ∧
      sizes udpHeaderLayout.members = UDPHeaderLayout.sizes :=
  ⟨rfl, rfl, rfl, rfl⟩

end Layouts

end CppBenchmark
