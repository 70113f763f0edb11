import CppBenchmark.Allocators.MemoryPool

/-!
# Arrays of records of variable size

`ArrayVariableSizeProperty` walks a buffer of records, each a header with a length field
and a payload, and stops when its cursor equals the end of the buffer. With the flag
`lengthIncludeSizeOfT` the length field counts the header too.
-/

namespace CppBenchmark

open ByteMemory

/-- The header type of an array: its size and how the length field is read from its
bytes. -/
structure HeaderType where
  sizeofT : Nat
  getLength : List UInt8 → Nat
  sizeofT_pos : 0 < sizeofT
  sizeofT_lt : sizeofT < 2 ^ 64
  getLength_lt : ∀ bytes, getLength bytes < 2 ^ 64

/-- What dereferencing the iterator yields: the addresses of header and payload, and the
length of the payload. -/
structure Entry where
  header : Nat
  payload : Nat
  length : Nat
  deriving DecidableEq

section Iterator

variable (T : HeaderType) (lengthIncludeSizeOfT : Bool) (m : Memory)

/-- `ArrayVariableSizePropertyIterator::operator*`. -/
def dereference (buffer : Nat) : Entry :=
  let length := T.getLength (m.read buffer T.sizeofT)
  if lengthIncludeSizeOfT then
    ⟨buffer, ptrAdd buffer T.sizeofT, (2 ^ 64 + length - T.sizeofT) % 2 ^ 64⟩
  else ⟨buffer, ptrAdd buffer T.sizeofT, length⟩

/-- `ArrayVariableSizePropertyIterator::operator++`. -/
def increment (buffer : Nat) : Nat :=
  let length := T.getLength (m.read buffer T.sizeofT)
  if lengthIncludeSizeOfT then ptrAdd buffer length
  else ptrAdd buffer ((length + T.sizeofT) % 2 ^ 64)

/-- The range-for loop: the entries yielded until the cursor equals `last`, or `none` when
the fuel runs out. -/
def rangeFor (last : Nat) : Nat → Nat → Option (List Entry)
  | 0, _ => none
  | fuel + 1, buffer =>
    if buffer ≠ last then
      (rangeFor last fuel (increment T lengthIncludeSizeOfT m buffer)).map
        (dereference T lengthIncludeSizeOfT m buffer :: ·)
    else some []

end Iterator

structure ArrayVariableSizeProperty where
  buffer : Nat
  length : Nat

namespace ArrayVariableSizeProperty

def beginPtr (array : ArrayVariableSizeProperty) : Nat := array.buffer

def endPtr (array : ArrayVariableSizeProperty) : Nat := ptrAdd array.buffer array.length

def loop (T : HeaderType) (lengthIncludeSizeOfT : Bool) (m : Memory) (fuel : Nat)
    (array : ArrayVariableSizeProperty) : Option (List Entry) :=
  rangeFor T lengthIncludeSizeOfT m array.endPtr fuel array.beginPtr

end ArrayVariableSizeProperty

structure WireRecord where
  header : List UInt8
  payload : List UInt8

namespace WireRecord

def bytes (r : WireRecord) : List UInt8 := r.header ++ r.payload

/-- The header has its size and its length field that of the payload, with the header
where the flag says so. -/
structure WellFormed (T : HeaderType) (lengthIncludeSizeOfT : Bool) (r : WireRecord) : Prop where
  header_length : r.header.length = T.sizeofT
  length_field : T.getLength r.header =
    if lengthIncludeSizeOfT then T.sizeofT + r.payload.length else r.payload.length

end WireRecord

/-- The entries of records that stand one after the other from an address on. -/
def entriesAt : Nat → List WireRecord → List Entry
  | _, [] => []
  | buffer, r :: rs =>
    ⟨buffer, buffer + r.header.length, r.payload.length⟩ :: entriesAt (buffer + r.bytes.length) rs

/-- A header that is a length of four bytes. -/
def countedHeader : HeaderType where
  sizeofT := 4
  getLength bytes := ofBytesLE bytes % 2 ^ 64
  sizeofT_pos := by decide
  sizeofT_lt := by decide
  getLength_lt _ := Nat.mod_lt _ (by decide)

def countedRecords : List WireRecord := [⟨[6, 0, 0, 0], [0xaa, 0xbb]⟩, ⟨[4, 0, 0, 0], []⟩]

def countedMemory : Memory :=
  Memory.write (fun _ => 0) 4096 (countedRecords.flatMap WireRecord.bytes)

lemma countedRecords_wellFormed : ∀ r ∈ countedRecords, r.WellFormed countedHeader true := by
  intro r hr
  simp only [countedRecords, List.mem_cons, List.not_mem_nil, or_false] at hr
  rcases hr with rfl | rfl
  · exact ⟨rfl, by decide⟩
  · exact ⟨rfl, by decide⟩

def Entry.Inside (T : HeaderType) (base n : Nat) (e : Entry) : Prop :=
  (base ≤ e.header ∧ e.header + T.sizeofT ≤ base + n) ∧
    base ≤ e.payload ∧ e.payload + e.length ≤ base + n

variable {T : HeaderType} {lengthIncludeSizeOfT : Bool} {m : Memory}
  {buffer last fuel fuel' length n base : Nat}

/-- One record: the entry and the next cursor agree on where it ends. -/
lemma dereference_increment
    (hlength : T.getLength (m.read buffer T.sizeofT) =
      if lengthIncludeSizeOfT then T.sizeofT + length else length)
    (hlt : buffer + T.sizeofT + length < 2 ^ 64) :
    dereference T lengthIncludeSizeOfT m buffer = ⟨buffer, buffer + T.sizeofT, length⟩ ∧
      increment T lengthIncludeSizeOfT m buffer = buffer + T.sizeofT + length := by
  have hpayload : ptrAdd buffer T.sizeofT = buffer + T.sizeofT := Nat.mod_eq_of_lt (by omega)
  cases lengthIncludeSizeOfT with
  | true =>
    simp only [if_true] at hlength
    have hsub : (2 ^ 64 + (T.sizeofT + length) - T.sizeofT) % 2 ^ 64 = length := by omega
    have hnext : ptrAdd buffer (T.sizeofT + length) = buffer + T.sizeofT + length := by
      rw [ptrAdd, ← Nat.add_assoc]
      exact Nat.mod_eq_of_lt hlt
    simp only [dereference, increment, if_true, hlength, hpayload, hsub, hnext, and_self]
  | false =>
    simp only [Bool.false_eq_true, if_false] at hlength
    have hnext : ptrAdd buffer ((length + T.sizeofT) % 2 ^ 64) = buffer + T.sizeofT + length := by
      rw [ptrAdd]
      omega
    simp only [dereference, increment, Bool.false_eq_true, if_false, hlength, hpayload, hnext,
      and_self]

lemma length_of_inside (hlast : last < 2 ^ 64) (hheader : buffer + T.sizeofT ≤ last)
    (hinside : (dereference T lengthIncludeSizeOfT m buffer).payload +
      (dereference T lengthIncludeSizeOfT m buffer).length ≤ last) :
    T.getLength (m.read buffer T.sizeofT) =
        (if lengthIncludeSizeOfT then
          T.sizeofT + (dereference T lengthIncludeSizeOfT m buffer).length
        else (dereference T lengthIncludeSizeOfT m buffer).length) ∧
      buffer + T.sizeofT + (dereference T lengthIncludeSizeOfT m buffer).length ≤ last := by
  have hpayload : ptrAdd buffer T.sizeofT = buffer + T.sizeofT := Nat.mod_eq_of_lt (by omega)
  have hfield := T.getLength_lt (m.read buffer T.sizeofT)
  have hsize := T.sizeofT_lt
  cases lengthIncludeSizeOfT with
  | true =>
    simp only [dereference, if_true, hpayload] at hinside ⊢
    omega
  | false =>
    simp only [dereference, Bool.false_eq_true, if_false, hpayload] at hinside ⊢
    exact ⟨trivial, hinside⟩

lemma rangeFor_mono {entries : List Entry} (hfuel : fuel ≤ fuel')
    (h : rangeFor T lengthIncludeSizeOfT m last fuel buffer = some entries) :
    rangeFor T lengthIncludeSizeOfT m last fuel' buffer = some entries := by
  induction fuel generalizing fuel' buffer entries with
  | zero => cases h
  | succ fuel ih =>
    obtain ⟨fuel', rfl⟩ : ∃ k, fuel' = k + 1 := ⟨fuel' - 1, by omega⟩
    rw [rangeFor] at h ⊢
    split_ifs at h ⊢ with hne
    · obtain ⟨rest, hrest, rfl⟩ := Option.map_eq_some_iff.mp h
      rw [ih (by omega) hrest, Option.map_some]
    · exact h

/-- The first of the records that stand one after the other, and the others behind it. -/
lemma WireRecord.WellFormed.read_cons {r : WireRecord} {records : List WireRecord}
    (hwf : r.WellFormed T lengthIncludeSizeOfT)
    (hread : m.read buffer ((r :: records).flatMap WireRecord.bytes).length =
      (r :: records).flatMap WireRecord.bytes) :
    m.read buffer T.sizeofT = r.header ∧ r.bytes.length = T.sizeofT + r.payload.length ∧
      m.read (buffer + r.bytes.length) (records.flatMap WireRecord.bytes).length =
        records.flatMap WireRecord.bytes := by
  rw [List.flatMap_cons] at hread
  obtain ⟨hfirst, hrest⟩ := Memory.read_append hread
  refine ⟨?_, ?_, hrest⟩
  · rw [← hwf.header_length]
    exact (Memory.read_append hfirst).1
  · rw [WireRecord.bytes, List.length_append, hwf.header_length]

/-- The loop over records that stand one after the other yields them and stops. -/
lemma rangeFor_entriesAt (records : List WireRecord) : ∀ buffer,
    (∀ r ∈ records, r.WellFormed T lengthIncludeSizeOfT) →
    m.read buffer (records.flatMap WireRecord.bytes).length = records.flatMap WireRecord.bytes →
    buffer + (records.flatMap WireRecord.bytes).length < 2 ^ 64 →
    rangeFor T lengthIncludeSizeOfT m (buffer + (records.flatMap WireRecord.bytes).length)
      (records.length + 1) buffer = some (entriesAt buffer records) := by
  induction records with
  | nil =>
    intro buffer _ _ _
    simp [rangeFor, entriesAt]
  | cons r records ih =>
    intro buffer hwf hread hlt
    obtain ⟨hheader, hfield⟩ := hwf r List.mem_cons_self
    obtain ⟨hhead, hbytes, hrest⟩ := (hwf r List.mem_cons_self).read_cons hread
    have hpos := T.sizeofT_pos
    rw [List.flatMap_cons, List.length_append] at hlt ⊢
    obtain ⟨hderef, hincr⟩ := dereference_increment (hhead ▸ hfield) (by omega)
    have hnext : buffer + T.sizeofT + r.payload.length = buffer + r.bytes.length := by omega
    have hloop := ih (buffer + r.bytes.length)
      (fun r' hr' => hwf r' (List.mem_cons_of_mem r hr')) hrest (by omega)
    rw [List.length_cons, rangeFor, if_pos (by omega), hderef, hincr, hnext, ← Nat.add_assoc, hloop,
      entriesAt, hheader, Option.map_some]

lemma records_of_rangeFor (hlast : last < 2 ^ 64) : ∀ (fuel buffer : Nat) (entries : List Entry),
    buffer ≤ last → rangeFor T lengthIncludeSizeOfT m last fuel buffer = some entries →
    (∀ e ∈ entries, e.header + T.sizeofT ≤ last ∧ e.payload + e.length ≤ last) →
    ∃ records, (∀ r ∈ records, r.WellFormed T lengthIncludeSizeOfT) ∧
      records.flatMap WireRecord.bytes = m.read buffer (last - buffer) ∧
      entries = entriesAt buffer records := by
  -- The fuel counts the steps of the walk; the cursor never passes `last`, since the
  -- entry it yields ends inside.
  intro fuel
  induction fuel with
  | zero =>
    intro buffer entries _ h
    cases h
  | succ fuel ih =>
    intro buffer entries hle h hinside
    rw [rangeFor] at h
    split_ifs at h with hne
    · obtain ⟨rest, hrest, rfl⟩ := Option.map_eq_some_iff.mp h
      have hfirst := hinside _ List.mem_cons_self
      have hheader : buffer + T.sizeofT ≤ last := by
        refine le_trans (le_of_eq ?_) hfirst.1
        cases lengthIncludeSizeOfT <;> simp [dereference]
      obtain ⟨hfield, hend⟩ := length_of_inside hlast hheader hfirst.2
      generalize (dereference T lengthIncludeSizeOfT m buffer).length = length at hfield hend
      obtain ⟨hderef, hincr⟩ := dereference_increment hfield (by omega)
      rw [hincr] at hrest
      obtain ⟨records, hwf, hbytes, rfl⟩ := ih (buffer + T.sizeofT + length) rest (by omega) hrest
        (fun e he => hinside e (List.mem_cons_of_mem _ he))
      let r : WireRecord :=
        ⟨m.read buffer T.sizeofT, m.read (buffer + T.sizeofT) length⟩
      have hr : r.bytes.length = T.sizeofT + length := by simp [r, WireRecord.bytes]
      refine ⟨r :: records, ?_, ?_, ?_⟩
      · intro r' hr'
        rcases List.mem_cons.mp hr' with rfl | hr'
        · exact ⟨by simp [r], by simpa [r] using hfield⟩
        · exact hwf r' hr'
      · have hsplit : last - buffer = T.sizeofT + (length + (last - (buffer + T.sizeofT + length))) := by
          omega
        rw [List.flatMap_cons, hbytes, hsplit, Memory.read_add, Memory.read_add]
        simp [r, WireRecord.bytes]
      · rw [hderef, entriesAt, hr]
        simp [r, Nat.add_assoc]
    · obtain rfl := Option.some.inj h
      rw [ne_eq, not_not] at hne
      exact ⟨[], by simp, by simp [hne, Memory.read], rfl⟩

lemma entriesAt_inside (records : List WireRecord) : ∀ buffer, base ≤ buffer →
    (∀ r ∈ records, r.WellFormed T lengthIncludeSizeOfT) →
    buffer + (records.flatMap WireRecord.bytes).length ≤ base + n →
    ∀ e ∈ entriesAt buffer records, e.Inside T base n := by
  induction records with
  | nil => simp [entriesAt]
  | cons r records ih =>
    intro buffer hbase hwf hend e he
    have hheader := (hwf r List.mem_cons_self).header_length
    have hbytes : r.bytes.length = r.header.length + r.payload.length := by simp [WireRecord.bytes]
    rw [List.flatMap_cons, List.length_append] at hend
    rcases List.mem_cons.mp he with rfl | he
    · refine ⟨⟨hbase, ?_⟩, ?_, ?_⟩
      all_goals dsimp only
      all_goals omega
    · exact ih _ (by omega) (fun r' hr' => hwf r' (List.mem_cons_of_mem r hr')) (by omega) e he

section Arrays

variable {entries : List Entry} {records : List WireRecord}

lemma loop_of_records (hlt : base + n < 2 ^ 64)
    (hwf : ∀ r ∈ records, r.WellFormed T lengthIncludeSizeOfT)
    (hbytes : records.flatMap WireRecord.bytes = m.read base n) :
    ArrayVariableSizeProperty.loop T lengthIncludeSizeOfT m (records.length + 1) ⟨base, n⟩ =
      some (entriesAt base records) := by
  have hn : (records.flatMap WireRecord.bytes).length = n := by rw [hbytes, Memory.read_length]
  have hend : ArrayVariableSizeProperty.endPtr ⟨base, n⟩ =
      base + (records.flatMap WireRecord.bytes).length := by
    rw [hn]
    exact Nat.mod_eq_of_lt hlt
  unfold ArrayVariableSizeProperty.loop
  rw [hend]
  exact rangeFor_entriesAt records base hwf (by rw [hn, hbytes]) (by omega)

lemma records_of_loop (hlt : base + n < 2 ^ 64) {fuel : Nat}
    (h : ArrayVariableSizeProperty.loop T lengthIncludeSizeOfT m fuel ⟨base, n⟩ = some entries)
    (hinside : ∀ e ∈ entries, e.header + T.sizeofT ≤ base + n ∧ e.payload + e.length ≤ base + n) :
    ∃ records, (∀ r ∈ records, WireRecord.WellFormed T lengthIncludeSizeOfT r) ∧
      records.flatMap WireRecord.bytes = m.read base n ∧ entries = entriesAt base records := by
  have hend : ArrayVariableSizeProperty.endPtr ⟨base, n⟩ = base + n := Nat.mod_eq_of_lt hlt
  unfold ArrayVariableSizeProperty.loop at h
  rw [hend] at h
  have hrecords := records_of_rangeFor hlt fuel base entries (Nat.le_add_right base n) h hinside
  rwa [Nat.add_sub_cancel_left] at hrecords

end Arrays

end CppBenchmark
