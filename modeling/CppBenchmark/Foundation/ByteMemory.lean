import Mathlib.Data.Nat.Digits.Lemmas
import Mathlib.Tactic

/-!
# Byte sequences and byte memory

Numbers as byte sequences in both byte orders, and a flat memory of bytes indexed by
natural-number addresses. Multi-byte values are read and written through their
little-endian byte sequences, so the frame of a store is a set of addresses.
-/

namespace ByteMemory

/-- The number whose bytes, least significant first, are `bs`. -/
def ofBytesLE (bs : List UInt8) : Nat :=
  Nat.ofDigits 256 (bs.map UInt8.toNat)

def toBytesLE : Nat → Nat → List UInt8
  | 0, _ => []
  | k + 1, v => UInt8.ofNat v :: toBytesLE k (v / 256)

def ofBytesBE (bs : List UInt8) : Nat := ofBytesLE bs.reverse

def toBytesBE (k v : Nat) : List UInt8 := (toBytesLE k v).reverse

@[simp] lemma ofBytesLE_nil : ofBytesLE [] = 0 := rfl

@[simp] lemma ofBytesLE_cons (b : UInt8) (bs : List UInt8) :
    ofBytesLE (b :: bs) = b.toNat + 256 * ofBytesLE bs := by
  simp [ofBytesLE, Nat.ofDigits_cons]

lemma ofBytesLE_lt (bs : List UInt8) : ofBytesLE bs < 256 ^ bs.length := by
  have h : ∀ x ∈ bs.map UInt8.toNat, x < 256 := by
    intro x hx
    obtain ⟨b, -, rfl⟩ := List.mem_map.mp hx
    exact b.toNat_lt
  simpa [ofBytesLE] using Nat.ofDigits_lt_base_pow_length (by norm_num) h

@[simp] lemma toBytesLE_length (k v : Nat) : (toBytesLE k v).length = k := by
  induction k generalizing v with
  | zero => rfl
  | succ k ih => simp [toBytesLE, ih]

@[simp] lemma toBytesBE_length (k v : Nat) : (toBytesBE k v).length = k := by
  simp [toBytesBE]

lemma ofBytesLE_toBytesLE (k v : Nat) : ofBytesLE (toBytesLE k v) = v % 256 ^ k := by
  induction k generalizing v with
  | zero => simp [toBytesLE, Nat.mod_one]
  | succ k ih =>
    have hbyte : (UInt8.ofNat v).toNat = v % 256 := UInt8.toNat_ofNat'
    rw [toBytesLE, ofBytesLE_cons, ih, hbyte, pow_succ', Nat.mod_mul]

lemma ofBytesLE_toBytesLE_of_lt {k v : Nat} (h : v < 256 ^ k) : ofBytesLE (toBytesLE k v) = v := by
  rw [ofBytesLE_toBytesLE, Nat.mod_eq_of_lt h]

lemma toBytesLE_ofBytesLE (bs : List UInt8) : toBytesLE bs.length (ofBytesLE bs) = bs := by
  induction bs with
  | nil => rfl
  | cons b bs ih =>
    have hb := b.toNat_lt
    have hlow : UInt8.ofNat (b.toNat + 256 * ofBytesLE bs) = b := by
      apply UInt8.toNat_inj.mp
      rw [UInt8.toNat_ofNat']
      omega
    have hhigh : (b.toNat + 256 * ofBytesLE bs) / 256 = ofBytesLE bs := by omega
    rw [List.length_cons, ofBytesLE_cons, toBytesLE, hlow, hhigh, ih]

lemma ofBytesBE_toBytesBE_of_lt {k v : Nat} (h : v < 256 ^ k) : ofBytesBE (toBytesBE k v) = v := by
  rw [ofBytesBE, toBytesBE, List.reverse_reverse, ofBytesLE_toBytesLE_of_lt h]

abbrev Memory := Nat → UInt8

namespace Memory

def read (m : Memory) (a k : Nat) : List UInt8 := (List.range k).map (fun i => m (a + i))

def write (m : Memory) (a : Nat) (bs : List UInt8) : Memory :=
  fun x => if a ≤ x then (bs[x - a]?).getD (m x) else m x

def readLE (m : Memory) (a k : Nat) : Nat := ofBytesLE (m.read a k)

def writeLE (m : Memory) (a k v : Nat) : Memory := m.write a (toBytesLE k v)

@[simp] lemma read_length (m : Memory) (a k : Nat) : (m.read a k).length = k := by
  simp [read]

lemma getElem_read (m : Memory) {a k i : Nat} (hi : i < (m.read a k).length) :
    (m.read a k)[i] = m (a + i) := by
  simp [read]

lemma read_add (m : Memory) (a j k : Nat) : m.read a (j + k) = m.read a j ++ m.read (a + j) k := by
  simp only [read, List.range_add, List.map_append, List.map_map]
  simp [Function.comp_def, Nat.add_assoc]

lemma read_append {m : Memory} {a : Nat} {bs cs : List UInt8}
    (h : m.read a (bs ++ cs).length = bs ++ cs) :
    m.read a bs.length = bs ∧ m.read (a + bs.length) cs.length = cs := by
  rw [List.length_append, read_add] at h
  exact List.append_inj h (read_length m a bs.length)

lemma read_congr {m m' : Memory} {a k : Nat} (h : ∀ x, a ≤ x → x < a + k → m' x = m x) :
    m'.read a k = m.read a k := by
  apply List.map_congr_left
  intro i hi
  exact h _ (by omega) (by have := List.mem_range.mp hi; omega)

lemma write_outside (m : Memory) {a x : Nat} {bs : List UInt8} (h : x < a ∨ a + bs.length ≤ x) :
    m.write a bs x = m x := by
  unfold write
  split
  · rw [List.getElem?_eq_none (by omega), Option.getD_none]
  · rfl

lemma write_inside (m : Memory) {a i : Nat} {bs : List UInt8} (hi : i < bs.length) :
    m.write a bs (a + i) = bs[i] := by
  simp [write, hi]

lemma read_write (m : Memory) (a : Nat) (bs : List UInt8) : (m.write a bs).read a bs.length = bs := by
  apply List.ext_getElem (by simp)
  intro i _ hi
  rw [getElem_read, write_inside m hi]

lemma read_write_disjoint (m : Memory) {a b k : Nat} {bs : List UInt8}
    (h : b + k ≤ a ∨ a + bs.length ≤ b) : (m.write a bs).read b k = m.read b k :=
  read_congr (fun _ _ _ => write_outside m (by omega))

lemma writeLE_outside (m : Memory) {a k v x : Nat} (h : x < a ∨ a + k ≤ x) :
    m.writeLE a k v x = m x :=
  write_outside m (by simpa using h)

lemma readLE_writeLE (m : Memory) (a k v : Nat) : (m.writeLE a k v).readLE a k = v % 256 ^ k := by
  have h := read_write m a (toBytesLE k v)
  rw [toBytesLE_length] at h
  rw [readLE, writeLE, h, ofBytesLE_toBytesLE]

lemma readLE_writeLE_disjoint (m : Memory) {a b k l v : Nat} (h : b + l ≤ a ∨ a + k ≤ b) :
    (m.writeLE a k v).readLE b l = m.readLE b l := by
  rw [readLE, writeLE, read_write_disjoint m (by simpa using h), readLE]

lemma readLE_congr {m m' : Memory} {a k : Nat} (h : ∀ x, a ≤ x → x < a + k → m' x = m x) :
    m'.readLE a k = m.readLE a k := by
  rw [readLE, read_congr h, readLE]

end Memory

end ByteMemory
