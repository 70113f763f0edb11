import CppBenchmark.Foundation.PackedLayout

/-!
# Native and byte-swapped properties

On a little-endian host a `Property` reads its bytes least significant first and a
`SwapEndiannessProperty` reverses them, which reads a big-endian number.
-/

namespace CppBenchmark

open ByteMemory PackedLayout

/-- `Property<T>::Get` of an unsigned integer or an enum. -/
def Property.get (object : List UInt8) : Nat := ofBytesLE object

/-- `__bswap_16`, `__bswap_32` and `__bswap_64` for `k` of 2, 4 and 8: the `k` bytes of a
number in the opposite order. -/
def bswap (k value : Nat) : Nat := ofBytesLE (toBytesLE k value).reverse

def SwapEndiannessProperty.get (object : List UInt8) : Nat :=
  bswap object.length (ofBytesLE object)

lemma SwapEndiannessProperty.get_eq (object : List UInt8) :
    SwapEndiannessProperty.get object = ofBytesBE object := by
  rw [SwapEndiannessProperty.get, bswap, toBytesLE_ofBytesLE, ofBytesBE]

section Fields

variable {sizes : List Nat} (object : PackedObject sizes) {i k v : Nat}

/-- A swapped field whose part is a number in network order. -/
lemma swap_get_field (hpart : object.parts[i]? = some (toBytesBE k v)) (hv : v < 256 ^ k) :
    SwapEndiannessProperty.get (field sizes object.bytes i) = v := by
  rw [object.field_bytes hpart, SwapEndiannessProperty.get_eq, ofBytesBE_toBytesBE_of_lt hv]

lemma get_byte_field {b : UInt8} (hpart : object.parts[i]? = some [b]) :
    Property.get (field sizes object.bytes i) = b.toNat := by
  rw [object.field_bytes hpart]
  simp [Property.get]

end Fields

end CppBenchmark
