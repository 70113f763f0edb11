import CppBenchmark.Foundation.PackedLayout
import CppBenchmark.Properties.ArrayVariableSize

/-!
# Reading a capture file

`Pcap::ReadPackets` takes a capture as a file header and an array of records. The array
runs from the end of the file header over the rest of the capture.
-/

namespace CppBenchmark

open ByteMemory PackedLayout

namespace PcapHeaderLayout

/-- MagicNumber, MajorVersion, MinorVersion, TimezoneOffset, TimestampAccuracy,
SnapshotLength, LinkLayerType. -/
def sizes : List Nat := [4, 2, 2, 4, 4, 4, 4]

lemma sizeof_sizes : sizeof sizes = 24 := rfl

end PcapHeaderLayout

namespace RecordHeaderLayout

/-- TimestampSeconds, TimestampMicroseconds, ByteRecordedInFileLength, OriginLength. -/
def sizes : List Nat := [4, 4, 4, 4]

lemma sizeof_sizes : sizeof sizes = 16 := rfl

def getByteRecordedInFileLength (object : List UInt8) : Nat := ofBytesLE (field sizes object 2)

def getLength (object : List UInt8) : Nat := getByteRecordedInFileLength object

lemma getLength_lt (object : List UInt8) : getLength object < 2 ^ 64 := by
  have hlength : (field sizes object 2).length ≤ 4 := by
    simp [field, sizes]
  calc getLength object < 256 ^ (field sizes object 2).length := ofBytesLE_lt _
    _ ≤ 256 ^ 4 := Nat.pow_le_pow_right (by norm_num) hlength
    _ < 2 ^ 64 := by norm_num

def headerType : HeaderType where
  sizeofT := sizeof sizes
  getLength := getLength
  sizeofT_pos := by decide
  sizeofT_lt := by decide
  getLength_lt := getLength_lt

end RecordHeaderLayout

namespace Pcap

/-- `Pcap::ReadPackets`: the file header and the array of records after it. The region
length is an unsigned subtraction. -/
def readPackets (pcapBuffer pcapTotalLength : Nat) : Nat × ArrayVariableSizeProperty :=
  (pcapBuffer,
    { buffer := ptrAdd pcapBuffer (sizeof PcapHeaderLayout.sizes)
      length := (2 ^ 64 + pcapTotalLength - sizeof PcapHeaderLayout.sizes) % 2 ^ 64 })

def readLoop (m : Memory) (fuel pcapBuffer pcapTotalLength : Nat) : Option (List Entry) :=
  (readPackets pcapBuffer pcapTotalLength).2.loop RecordHeaderLayout.headerType false m fuel

end Pcap

lemma readPackets_array {base n : Nat} (hheader : 24 ≤ n) (hlt : base + n < 2 ^ 64) :
    (Pcap.readPackets base n).2 = ⟨base + 24, n - 24⟩ := by
  have hbuffer : ptrAdd base 24 = base + 24 := Nat.mod_eq_of_lt (by omega)
  have hlength : (2 ^ 64 + n - 24) % 2 ^ 64 = n - 24 := by omega
  simp only [Pcap.readPackets, PcapHeaderLayout.sizeof_sizes, hbuffer, hlength]

def sampleRecord : WireRecord := ⟨[0, 0, 0, 0, 0, 0, 0, 0, 2, 0, 0, 0, 2, 0, 0, 0], [0xaa, 0xbb]⟩

def sampleFileHeader : List UInt8 :=
  [0xd4, 0xc3, 0xb2, 0xa1, 2, 0, 4, 0, 0, 0, 0, 0, 0, 0, 0, 0, 0xff, 0xff, 0, 0, 1, 0, 0, 0]

def sampleRecords : List WireRecord :=
  [sampleRecord, ⟨[1, 0, 0, 0, 0, 0, 0, 0, 3, 0, 0, 0, 9, 0, 0, 0], [0xcc, 0xdd, 0xee]⟩]

def sampleMemory : Memory :=
  Memory.write (fun _ => 0) 4096 (sampleFileHeader ++ sampleRecords.flatMap WireRecord.bytes)

lemma sampleRecords_wellFormed :
    ∀ r ∈ sampleRecords, r.WellFormed RecordHeaderLayout.headerType false := by
  intro r hr
  simp only [sampleRecords, List.mem_cons, List.not_mem_nil, or_false] at hr
  rcases hr with rfl | rfl
  · exact ⟨rfl, by decide⟩
  · exact ⟨rfl, by decide⟩

/-- The record iterator decodes exactly the concatenations of well-formed records: the
loop over one yields its records and stops, and a loop that stays inside its buffer
walked over one. A capture is a file header before such a concatenation. -/
theorem recordIterator_decodes_exactly (m : Memory) :
    (∀ (T : HeaderType) (lengthIncludeSizeOfT : Bool) (base : Nat) (records : List WireRecord),
      (∀ r ∈ records, r.WellFormed T lengthIncludeSizeOfT) →
      m.read base (records.flatMap WireRecord.bytes).length = records.flatMap WireRecord.bytes →
      base + (records.flatMap WireRecord.bytes).length < 2 ^ 64 →
      ∀ fuel, records.length < fuel →
        ArrayVariableSizeProperty.loop T lengthIncludeSizeOfT m fuel
          ⟨base, (records.flatMap WireRecord.bytes).length⟩ = some (entriesAt base records)) ∧
    (∀ (T : HeaderType) (lengthIncludeSizeOfT : Bool) (base n fuel : Nat) (entries : List Entry),
      base + n < 2 ^ 64 →
      ArrayVariableSizeProperty.loop T lengthIncludeSizeOfT m fuel ⟨base, n⟩ = some entries →
      (∀ e ∈ entries, e.Inside T base n) →
      ∃ records, (∀ r ∈ records, WireRecord.WellFormed T lengthIncludeSizeOfT r) ∧
        records.flatMap WireRecord.bytes = m.read base n ∧ entries = entriesAt base records) ∧
    (∀ (base : Nat) (fileHeader : List UInt8) (records : List WireRecord) (capture : List UInt8),
      fileHeader.length = sizeof PcapHeaderLayout.sizes →
      (∀ r ∈ records, r.WellFormed RecordHeaderLayout.headerType false) →
      capture = fileHeader ++ records.flatMap WireRecord.bytes →
      m.read base capture.length = capture → base + capture.length < 2 ^ 64 →
      (Pcap.readPackets base capture.length).1 = base ∧
        ∀ fuel, records.length < fuel →
          Pcap.readLoop m fuel base capture.length = some (entriesAt (base + 24) records)) := by
  refine ⟨?_, ?_, ?_⟩
  · intro T lengthIncludeSizeOfT base records hwf hread hlt fuel hfuel
    exact rangeFor_mono hfuel (loop_of_records hlt hwf hread.symm)
  · intro T lengthIncludeSizeOfT base n fuel entries hlt hloop hinside
    exact records_of_loop hlt hloop (fun e he => ⟨(hinside e he).1.2, (hinside e he).2.2⟩)
  · intro base fileHeader records capture hheader hwf hcapture hread hlt
    rw [PcapHeaderLayout.sizeof_sizes] at hheader
    have hlength : capture.length = 24 + (records.flatMap WireRecord.bytes).length := by
      rw [hcapture, List.length_append, hheader]
    refine ⟨rfl, fun fuel hfuel => ?_⟩
    rw [hcapture] at hread
    have hrecords := (Memory.read_append hread).2
    rw [hheader] at hrecords
    unfold Pcap.readLoop
    rw [readPackets_array (by omega) hlt, hlength, Nat.add_sub_cancel_left]
    exact rangeFor_mono hfuel (loop_of_records (by omega) hwf hrecords.symm)

/-- Two records of a capture, and two whose length fields count their headers. -/
theorem recordIterator_decodes_sample :
    ArrayVariableSizeProperty.loop RecordHeaderLayout.headerType false sampleMemory 3 ⟨4120, 37⟩ =
        some (entriesAt 4120 sampleRecords) ∧
      (∃ records, (∀ r ∈ records, WireRecord.WellFormed RecordHeaderLayout.headerType false r) ∧
        records.flatMap WireRecord.bytes = sampleMemory.read 4120 37 ∧
        [⟨4120, 4136, 2⟩, ⟨4138, 4154, 3⟩] = entriesAt 4120 records) ∧
      Pcap.readLoop sampleMemory 3 4096 61 = some (entriesAt 4120 sampleRecords) ∧
      ArrayVariableSizeProperty.loop countedHeader true countedMemory 3 ⟨4096, 10⟩ =
        some (entriesAt 4096 countedRecords) := by
  obtain ⟨forward, converse, capture⟩ := recordIterator_decodes_exactly sampleMemory
  have hwf := sampleRecords_wellFormed
  refine ⟨?_, ?_, ?_, ?_⟩
  · exact forward _ false 4120 sampleRecords hwf (by decide +kernel) (by decide) 3 (by decide)
  · refine converse _ false 4120 37 3 [⟨4120, 4136, 2⟩, ⟨4138, 4154, 3⟩] (by decide)
      (by decide +kernel) ?_
    simp [Entry.Inside, RecordHeaderLayout.headerType, RecordHeaderLayout.sizeof_sizes]
  · exact (capture 4096 sampleFileHeader sampleRecords _ rfl hwf rfl (by decide +kernel)
      (by decide)).2 3 (by decide)
  · exact (recordIterator_decodes_exactly countedMemory).1 countedHeader true 4096 countedRecords
      countedRecords_wellFormed (by decide +kernel) (by decide) 3 (by decide)

/-- Reading a capture is safe: the loop ends, and every header it reads and every payload
range it yields lie inside the buffer. -/
def CaptureSafe (m : Memory) (base n : Nat) : Prop :=
  ∃ fuel entries, Pcap.readLoop m fuel base n = some entries ∧
    ∀ e ∈ entries, e.Inside RecordHeaderLayout.headerType base n

lemma CaptureSafe.first_inside {m : Memory} {base n : Nat} (h : CaptureSafe m base n)
    (hne : (Pcap.readPackets base n).2.beginPtr ≠ (Pcap.readPackets base n).2.endPtr) :
    (dereference RecordHeaderLayout.headerType false m (Pcap.readPackets base n).2.beginPtr).Inside
      RecordHeaderLayout.headerType base n := by
  obtain ⟨fuel, entries, hloop, hinside⟩ := h
  cases fuel with
  | zero => cases hloop
  | succ fuel =>
    rw [Pcap.readLoop, ArrayVariableSizeProperty.loop, rangeFor, if_pos hne] at hloop
    obtain ⟨rest, -, rfl⟩ := Option.map_eq_some_iff.mp hloop
    exact hinside _ List.mem_cons_self

/-- A safe capture holds its file header: else the array starts past its end. -/
lemma CaptureSafe.header_le {m : Memory} {base n : Nat} (hlt : base + n < 2 ^ 64)
    (h : CaptureSafe m base n) : 24 ≤ n := by
  by_contra hn
  have hbegin : (Pcap.readPackets base n).2.beginPtr = (base + 24) % 2 ^ 64 := rfl
  have hend : (Pcap.readPackets base n).2.endPtr =
      ((base + 24) % 2 ^ 64 + (2 ^ 64 + n - 24) % 2 ^ 64) % 2 ^ 64 := rfl
  have hfirst := (h.first_inside (by omega)).1
  have hsize : RecordHeaderLayout.headerType.sizeofT = 16 := rfl
  have hheader : (dereference RecordHeaderLayout.headerType false m
      (Pcap.readPackets base n).2.beginPtr).header = (Pcap.readPackets base n).2.beginPtr := rfl
  omega

/-- Nothing validates the lengths of a capture: reading it is safe exactly when it is a
complete file header followed by complete records. -/
theorem captureSafe_iff {m : Memory} {base n : Nat} (hlt : base + n < 2 ^ 64) :
    CaptureSafe m base n ↔ ∃ (fileHeader : List UInt8) (records : List WireRecord),
      fileHeader.length = sizeof PcapHeaderLayout.sizes ∧
        (∀ r ∈ records, r.WellFormed RecordHeaderLayout.headerType false) ∧
        m.read base n = fileHeader ++ records.flatMap WireRecord.bytes := by
  constructor
  · intro h
    have hheader := h.header_le hlt
    obtain ⟨fuel, entries, hloop, hinside⟩ := h
    unfold Pcap.readLoop at hloop
    rw [readPackets_array hheader hlt] at hloop
    obtain ⟨records, hwf, hbytes, -⟩ := records_of_loop (by omega) hloop (fun e he => by
      obtain ⟨hhead, hpayload⟩ := hinside e he
      omega)
    refine ⟨m.read base 24, records, by simp [PcapHeaderLayout.sizeof_sizes], hwf, ?_⟩
    rw [hbytes, ← Memory.read_add, Nat.add_sub_cancel' hheader]
  · rintro ⟨fileHeader, records, hheader, hwf, hread⟩
    rw [PcapHeaderLayout.sizeof_sizes] at hheader
    have hlength := congrArg List.length hread
    rw [Memory.read_length] at hlength
    subst hlength
    have hrecords := (Memory.read_append hread).2
    rw [hheader] at hrecords
    rw [List.length_append, hheader] at hlt ⊢
    refine ⟨records.length + 1, entriesAt (base + 24) records, ?_, ?_⟩
    · unfold Pcap.readLoop
      rw [readPackets_array (by omega) hlt, Nat.add_sub_cancel_left]
      exact loop_of_records (by omega) hwf hrecords.symm
    · exact entriesAt_inside records (base + 24) (by omega) hwf (by omega)

theorem captureSafe_sample : CaptureSafe sampleMemory 4096 42 :=
  (captureSafe_iff (by decide)).mpr
    ⟨sampleFileHeader, [sampleRecord], rfl,
      fun r hr => sampleRecords_wellFormed r (by
        rw [List.mem_singleton.mp hr]
        exact List.mem_cons_self), by decide +kernel⟩

/-- The capture without the last byte of its payload. -/
theorem truncated_capture_unsafe : ¬ CaptureSafe sampleMemory 4096 41 := by
  intro h
  have hfirst := h.first_inside (by decide)
  have hentry : dereference RecordHeaderLayout.headerType false sampleMemory
      (Pcap.readPackets 4096 41).2.beginPtr = ⟨4120, 4136, 2⟩ := by decide +kernel
  rw [hentry] at hfirst
  exact absurd hfirst.2.2 (by decide)

end CppBenchmark
