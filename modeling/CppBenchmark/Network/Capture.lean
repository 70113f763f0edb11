import CppBenchmark.Network.Encapsulation
import CppBenchmark.Network.Pcap
import CppBenchmark.Properties.PropertyStreams

/-!
# Captured packets

A capture file is a file header and, for each packet, a record header and a frame. The loop
over the records, the payload pointers and the accessors of the headers give back what was
captured.
-/

namespace CppBenchmark

open ByteMemory PackedLayout

namespace PcapHeaderLayout

variable (object : List UInt8)

def getMagicNumber : Nat := Property.get (field sizes object 0)

def getMajorVersion : Nat := Property.get (field sizes object 1)

def getMinorVersion : Nat := Property.get (field sizes object 2)

def getTimezoneOffset : Int := PropertyType.signedValue (field sizes object 3)

def getTimestampAccuracy : Nat := Property.get (field sizes object 4)

def getSnapshotLength : Nat := Property.get (field sizes object 5)

def getLinkLayerType : Nat := Property.get (field sizes object 6)

end PcapHeaderLayout

namespace RecordHeaderLayout

variable (object : List UInt8)

def getTimestampSeconds : Nat := Property.get (field sizes object 0)

def getTimestampMicroseconds : Nat := Property.get (field sizes object 1)

def getOriginLength : Nat := Property.get (field sizes object 3)

end RecordHeaderLayout

structure PcapFields where
  magicNumber : BitVec 32
  majorVersion : BitVec 16
  minorVersion : BitVec 16
  timezoneOffset : BitVec 32
  timestampAccuracy : BitVec 32
  snapshotLength : BitVec 32
  linkLayerType : BitVec 32

namespace PcapFields

variable (f : PcapFields)

def object : PackedObject PcapHeaderLayout.sizes where
  parts := [toBytesLE 4 f.magicNumber.toNat, toBytesLE 2 f.majorVersion.toNat,
    toBytesLE 2 f.minorVersion.toNat, toBytesLE 4 f.timezoneOffset.toNat,
    toBytesLE 4 f.timestampAccuracy.toNat, toBytesLE 4 f.snapshotLength.toNat,
    toBytesLE 4 f.linkLayerType.toNat]
  parts_sizes := by simp [PcapHeaderLayout.sizes]

def encode : List UInt8 := f.object.bytes

lemma encode_length : f.encode.length = 24 := f.object.bytes_length

structure ReadBack (object : List UInt8) : Prop where
  magicNumber : PcapHeaderLayout.getMagicNumber object = f.magicNumber.toNat
  majorVersion : PcapHeaderLayout.getMajorVersion object = f.majorVersion.toNat
  minorVersion : PcapHeaderLayout.getMinorVersion object = f.minorVersion.toNat
  timezoneOffset : PcapHeaderLayout.getTimezoneOffset object = f.timezoneOffset.toInt
  timestampAccuracy : PcapHeaderLayout.getTimestampAccuracy object = f.timestampAccuracy.toNat
  snapshotLength : PcapHeaderLayout.getSnapshotLength object = f.snapshotLength.toNat
  linkLayerType : PcapHeaderLayout.getLinkLayerType object = f.linkLayerType.toNat

end PcapFields

section Fields

variable {sizes : List Nat} (object : PackedObject sizes) {i k v : Nat}

/-- A native field whose part is a number. -/
lemma get_field (hpart : object.parts[i]? = some (toBytesLE k v)) (hv : v < 256 ^ k) :
    Property.get (field sizes object.bytes i) = v := by
  rw [object.field_bytes hpart, Property.get, ofBytesLE_toBytesLE_of_lt hv]

end Fields

namespace PcapFields

lemma encode_readBack (f : PcapFields) : f.ReadBack f.encode where
  magicNumber := get_field f.object rfl f.magicNumber.isLt
  majorVersion := get_field f.object rfl f.majorVersion.isLt
  minorVersion := get_field f.object rfl f.minorVersion.isLt
  timezoneOffset := by
    have h : f.object.parts[3]? = some (toBytesLE 4 f.timezoneOffset.toNat) := rfl
    rw [PcapHeaderLayout.getTimezoneOffset, encode, f.object.field_bytes h, PropertyType.signedValue,
      ofBytesLE_toBytesLE_of_lt f.timezoneOffset.isLt, toBytesLE_length, BitVec.toInt_eq_toNat_bmod]
    rfl
  timestampAccuracy := get_field f.object rfl f.timestampAccuracy.isLt
  snapshotLength := get_field f.object rfl f.snapshotLength.isLt
  linkLayerType := get_field f.object rfl f.linkLayerType.isLt

end PcapFields

/-- A packet as it was captured whole, and the values of its record header. -/
structure CapturedPacket where
  timestampSeconds : BitVec 32
  timestampMicroseconds : BitVec 32
  originLength : BitVec 32
  frame : Frame
  frame_lt : frame.encode.length < 2 ^ 32

namespace CapturedPacket

variable (p : CapturedPacket)

def object : PackedObject RecordHeaderLayout.sizes where
  parts := [toBytesLE 4 p.timestampSeconds.toNat, toBytesLE 4 p.timestampMicroseconds.toNat,
    toBytesLE 4 p.frame.encode.length, toBytesLE 4 p.originLength.toNat]
  parts_sizes := by simp [RecordHeaderLayout.sizes]

def record : WireRecord := ⟨p.object.bytes, p.frame.encode⟩

structure ReadBack (object : List UInt8) : Prop where
  timestampSeconds : RecordHeaderLayout.getTimestampSeconds object = p.timestampSeconds.toNat
  timestampMicroseconds :
    RecordHeaderLayout.getTimestampMicroseconds object = p.timestampMicroseconds.toNat
  byteRecordedInFileLength :
    RecordHeaderLayout.getByteRecordedInFileLength object = p.frame.encode.length
  originLength : RecordHeaderLayout.getOriginLength object = p.originLength.toNat

end CapturedPacket

structure CaptureFile where
  header : PcapFields
  packets : List CapturedPacket

def CaptureFile.encode (c : CaptureFile) : List UInt8 :=
  c.header.encode ++ (c.packets.map CapturedPacket.record).flatMap WireRecord.bytes

section Loop

variable {m : Memory} {buffer : Nat}

end Loop

end CppBenchmark
