import CppBenchmark.Foundation.RecordLayout
import CppBenchmark.Foundation.StreamRecord
import CppBenchmark.Properties.SwapEndianness

/-!
# Streaming properties

How the properties of a layout are inserted into a stream. Integers of one byte are
characters, so they are printed as they are; a byte filler prints nothing; an array is
printed element by element between brackets.
-/

namespace CppBenchmark

open ByteMemory OutputStream OutputStream.Stream DelimitedText RecordLayout

/-- A type that a property may have: its size and alignment, and its `operator<<`. -/
structure PropertyType where
  member : Member
  stream : List UInt8 → Stream → Stream

namespace PropertyType

/-- `std::uint16_t`, `std::uint32_t`, `std::uint64_t`, their `Property` and that of an enum,
for `log` of 1, 2 and 3. -/
def unsigned (log : Nat) : PropertyType where
  member := Member.scalar log
  stream bytes := insertUnsigned (Property.get bytes)

/-- `std::uint8_t`, `std::int8_t`, `Property<std::uint8_t>` and that of an enum of one byte. -/
def character : PropertyType where
  member := Member.bytes 1
  stream bytes := insertChar (Char.ofUInt8 (bytes.getD 0 0))

/-- The number that bytes hold in two's complement. -/
def signedValue (bytes : List UInt8) : Int := (ofBytesLE bytes : Int).bmod (256 ^ bytes.length)

/-- `Property<std::int32_t>` for `log` of 2. -/
def signed (log : Nat) : PropertyType where
  member := Member.scalar log
  stream bytes := insertSigned (8 * 2 ^ log) (signedValue bytes)

/-- `SwapEndiannessProperty<T>` of an unsigned integer or an enum. -/
def swapped (log : Nat) : PropertyType where
  member := Member.scalar log
  stream bytes := insertUnsigned (SwapEndiannessProperty.get bytes)

/-- The loop of `Property<std::uint8_t, N>::Stream`. -/
def streamElements (N : Nat) (bytes : List UInt8) (os : Stream) : Stream :=
  (List.range N).foldl (fun os i =>
    let os := insertChar (Char.ofUInt8 (bytes.getD i 0)) os
    if N - 1 ≠ i then insertString [';'] os else os) os

/-- `Property<std::uint8_t, N>` for `N` other than 1. -/
def characters (N : Nat) : PropertyType where
  member := Member.bytes N
  stream bytes os := insertString [']'] (streamElements N bytes (insertString ['['] os))

/-- `ByteFillerProperty<N>` -/
def byteFiller (N : Nat) : PropertyType where
  member := Member.bytes N
  stream _ := id

end PropertyType

namespace PropertyType

variable (type : PropertyType) {base : Base}

/-- The text of a property can be told from what follows it, and shows a part of its bytes. -/
structure Shows (shown : List UInt8 → List UInt8) : Prop where
  readable : Readable type.stream
  text_eq_iff : ∀ base a b, a.length = type.member.sizeof → b.length = type.member.sizeof →
    (textAt base (type.stream a) = textAt base (type.stream b) ↔ shown a = shown b)

variable {type} {shown : List UInt8 → List UInt8}

lemma shows_of_render {render : List UInt8 → Base → List Char}
    (hprints : ∀ bytes, Prints (type.stream bytes) (render bytes))
    (hdelimiting : ∀ base, SelfDelimiting isWord (fun bytes => render bytes base))
    (hshown : ∀ base a b, a.length = type.member.sizeof → b.length = type.member.sizeof →
      (render a base = render b base ↔ shown a = shown b)) : type.Shows shown where
  readable := readable_of_render hprints hdelimiting
  text_eq_iff base a b ha hb := by
    rw [(hprints a).textAt_eq, (hprints b).textAt_eq]
    exact hshown base a b ha hb

lemma ofBytesLE_inj {a b : List UInt8} (hlength : a.length = b.length)
    (h : ofBytesLE a = ofBytesLE b) : a = b := by
  rw [← toBytesLE_ofBytesLE a, ← toBytesLE_ofBytesLE b, hlength, h]

/-- A type that prints the number its bytes hold. -/
lemma shows_number {value : List UInt8 → Nat} (hstream : ∀ bytes, type.stream bytes =
    insertUnsigned (value bytes))
    (hvalue : ∀ a b : List UInt8, a.length = b.length → value a = value b → a = b) :
    type.Shows id := by
  apply shows_of_render (fun bytes => (hstream bytes).symm ▸ prints_insertUnsigned (value bytes))
  · exact fun base => selfDelimiting_of_word (fun bytes c hc => isWord_toDigits hc)
  · intro base a b ha hb
    constructor
    · exact fun h => hvalue a b (ha.trans hb.symm) (toDigits_inj h)
    · intro h
      change a = b at h
      rw [h]

lemma shows_unsigned (log : Nat) : (unsigned log).Shows id :=
  shows_number (fun _ => rfl) (fun _ _ hlength h => ofBytesLE_inj hlength h)

lemma shows_swapped (log : Nat) : (swapped log).Shows id := by
  apply shows_number (fun _ => rfl)
  intro a b hlength h
  rw [SwapEndiannessProperty.get_eq, SwapEndiannessProperty.get_eq] at h
  apply List.reverse_injective
  exact ofBytesLE_inj (by rw [List.length_reverse, List.length_reverse, hlength]) h

lemma ofUInt8_inj {b c : UInt8} (h : Char.ofUInt8 b = Char.ofUInt8 c) : b = c := by
  apply UInt8.toNat_inj.mp
  exact congrArg (fun d : Char => d.val.toNat) h

lemma shows_character : character.Shows id := by
  apply shows_of_render (fun bytes => prints_insertChar (Char.ofUInt8 (bytes.getD 0 0)))
  · exact fun base => selfDelimiting_of_length (fun a b => rfl)
  · intro base a b ha hb
    obtain ⟨x, rfl⟩ := List.length_eq_one_iff.mp ha
    obtain ⟨y, rfl⟩ := List.length_eq_one_iff.mp hb
    constructor
    · intro h
      exact congrArg (fun z => [z]) (ofUInt8_inj (List.singleton_inj.mp h))
    · intro h
      change [x] = [y] at h
      rw [h]

lemma shows_byteFiller (N : Nat) : (byteFiller N).Shows (fun _ => []) := by
  apply shows_of_render (fun _ => prints_id)
  · exact fun base => selfDelimiting_of_length (fun a b => rfl)
  · exact fun base a b ha hb => iff_of_true rfl rfl

lemma signedValue_range {log : Nat} {bytes : List UInt8} (h : bytes.length = 2 ^ log) :
    -2 ^ (8 * 2 ^ log - 1) ≤ signedValue bytes ∧ signedValue bytes < 2 ^ (8 * 2 ^ log - 1) := by
  have hpos := Nat.two_pow_pos log
  have hpow : 256 ^ bytes.length = 2 * 2 ^ (8 * 2 ^ log - 1) := by
    rw [h, ← pow_succ', Nat.sub_add_cancel (by omega), pow_mul]
    norm_num
  have hlow := @Int.le_bmod (ofBytesLE bytes) (256 ^ bytes.length) (by positivity)
  have hhigh := @Int.bmod_lt (ofBytesLE bytes) (256 ^ bytes.length) (by positivity)
  unfold signedValue
  rw [hpow] at hlow hhigh ⊢
  push_cast at hlow hhigh ⊢
  constructor <;> omega

lemma signedValue_inj {a b : List UInt8} (hlength : a.length = b.length)
    (h : signedValue a = signedValue b) : a = b := by
  have hmod : (ofBytesLE a : Int) % (256 ^ b.length : Nat) = (ofBytesLE b : Int) % (256 ^ b.length : Nat) := by
    unfold signedValue at h
    rw [hlength] at h
    rw [← Int.bmod_emod, h, Int.bmod_emod]
  have ha := ofBytesLE_lt a
  have hb := ofBytesLE_lt b
  rw [hlength] at ha
  apply ofBytesLE_inj hlength
  norm_cast at hmod
  rwa [Nat.mod_eq_of_lt ha, Nat.mod_eq_of_lt hb] at hmod

lemma shows_signed (log : Nat) : (signed log).Shows id := by
  apply shows_of_render (fun bytes => prints_insertSigned (8 * 2 ^ log) (signedValue bytes))
  · exact fun base => selfDelimiting_of_word (fun bytes c hc => isWord_signedText hc)
  · intro base a b ha hb
    have hbits : 0 < 8 * 2 ^ log := by positivity
    constructor
    · intro h
      have hvalue := signedText_inj hbits (signedValue_range ha) (signedValue_range hb) h
      exact signedValue_inj (ha.trans hb.symm) hvalue
    · intro h
      change a = b at h
      rw [h]

/-- The text of one round of the loop over the elements. -/
def elementText (N : Nat) (bytes : List UInt8) (i : Nat) : List Char :=
  [Char.ofUInt8 (bytes.getD i 0)] ++ if N - 1 ≠ i then [';'] else []

lemma prints_element (N : Nat) (bytes : List UInt8) (i : Nat) :
    Prints (fun os =>
      let os := insertChar (Char.ofUInt8 (bytes.getD i 0)) os
      if N - 1 ≠ i then insertString [';'] os else os) (fun _ => elementText N bytes i) := by
  unfold elementText
  by_cases h : N - 1 ≠ i
  · simp only [if_pos h]
    exact (prints_insertChar _).comp (prints_insertString _)
  · simp only [if_neg h]
    exact (prints_insertChar _).comp prints_id

lemma length_elementText (N : Nat) (a b : List UInt8) (i : Nat) :
    (elementText N a i).length = (elementText N b i).length := by
  unfold elementText
  rw [List.length_append, List.length_append, List.length_singleton, List.length_singleton]

lemma elementText_inj {N i : Nat} {a b : List UInt8} :
    elementText N a i = elementText N b i ↔ a.getD i 0 = b.getD i 0 := by
  unfold elementText
  constructor
  · intro h
    exact ofUInt8_inj (List.singleton_inj.mp (List.append_inj h rfl).1)
  · intro h
    rw [h]

lemma shows_characters (N : Nat) : (characters N).Shows id := by
  have hprints : ∀ bytes, Prints ((characters N).stream bytes)
      (fun _ => ['['] ++ ((List.range N).flatMap (elementText N bytes) ++ [']'])) := by
    intro bytes
    have h := ((prints_insertString ['[']).comp
      (prints_foldl (s := List.range N) (fun i _ => prints_element N bytes i))).comp
        (prints_insertString [']'])
    simp only [List.append_assoc] at h
    exact h
  apply shows_of_render hprints
  · intro base
    apply selfDelimiting_of_length
    intro a b
    simp only [List.length_append, List.length_flatMap, length_elementText N a b]
  · intro base a b ha hb
    rw [List.append_cancel_left_eq, List.append_cancel_right_eq,
      flatMap_inj_iff (length_elementText N a b)]
    simp only [elementText_inj]
    constructor
    · intro h
      apply List.ext_getElem (ha.trans hb.symm)
      intro i hi hi'
      have hget := h i (List.mem_range.mpr (hi.trans_eq ha))
      rwa [List.getD_eq_getElem _ _ hi, List.getD_eq_getElem _ _ hi'] at hget
    · intro h i _
      change a = b at h
      rw [h]

end PropertyType

end CppBenchmark
