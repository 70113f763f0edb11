import CppBenchmark.Allocators.MemoryPool
import CppBenchmark.Properties.SwapEndianness

/-!
# Ethernet, IPv4 and UDP headers

The layouts of the three headers, their accessors and payload pointers, and the headers on
the wire.
-/

namespace CppBenchmark

open ByteMemory PackedLayout

namespace EthernetFrameLayout

/-- DestinationAddress, SourceAddress, EthernetType. -/
def sizes : List Nat := [6, 6, 2]

lemma sizeof_sizes : sizeof sizes = 14 := rfl

def getDestinationAddress (object : List UInt8) : List UInt8 := field sizes object 0

def getSourceAddress (object : List UInt8) : List UInt8 := field sizes object 1

def getEthernetType (object : List UInt8) : Nat := SwapEndiannessProperty.get (field sizes object 2)

end EthernetFrameLayout

def EthernetFrame.getPayload (frame : Nat) : Nat := ptrAdd frame (sizeof EthernetFrameLayout.sizes)

structure VersionWithInternetHeaderLength where
  value : UInt8

namespace VersionWithInternetHeaderLength

def ofBytes (object : List UInt8) : VersionWithInternetHeaderLength := ⟨object.getD 0 0⟩

def getVersion (v : VersionWithInternetHeaderLength) : Nat := v.value.toNat >>> 4

def getInternetHeaderLength (v : VersionWithInternetHeaderLength) : Nat := 0xf &&& v.value.toNat

end VersionWithInternetHeaderLength

namespace IPv4HeaderLayout

/-- VersionWithInternetHeaderLength, DSCPWithECN, TotalLength, Identification,
FlagsWithFragmentOffset, TimeToLive, Protocol, HeaderChecksum, SourceIPAddress,
DestinationIPAddress. -/
def sizes : List Nat := [1, 1, 2, 2, 2, 1, 1, 2, 4, 4]

lemma sizeof_sizes : sizeof sizes = 20 := rfl

variable (object : List UInt8)

def getVersionWithInternetHeaderLength : VersionWithInternetHeaderLength :=
  VersionWithInternetHeaderLength.ofBytes (field sizes object 0)

def getTotalLength : Nat := SwapEndiannessProperty.get (field sizes object 2)

def getIdentification : Nat := SwapEndiannessProperty.get (field sizes object 3)

def getTimeToLive : Nat := Property.get (field sizes object 5)

def getProtocol : Nat := Property.get (field sizes object 6)

def getHeaderChecksum : Nat := SwapEndiannessProperty.get (field sizes object 7)

def getSourceIPAddress : Nat := SwapEndiannessProperty.get (field sizes object 8)

def getDestinationIPAddress : Nat := SwapEndiannessProperty.get (field sizes object 9)

end IPv4HeaderLayout

def IPv4Header.getPayload (m : Memory) (header : Nat) : Nat :=
  ptrAdd header ((IPv4HeaderLayout.getVersionWithInternetHeaderLength
    (m.read header (sizeof IPv4HeaderLayout.sizes))).getInternetHeaderLength * 4)

namespace UDPHeaderLayout

/-- SourcePort, DestinationPort, Length, Checksum. -/
def sizes : List Nat := [2, 2, 2, 2]

lemma sizeof_sizes : sizeof sizes = 8 := rfl

variable (object : List UInt8)

def getSourcePort : Nat := SwapEndiannessProperty.get (field sizes object 0)

def getDestinationPort : Nat := SwapEndiannessProperty.get (field sizes object 1)

def getLength : Nat := SwapEndiannessProperty.get (field sizes object 2)

def getChecksum : Nat := SwapEndiannessProperty.get (field sizes object 3)

end UDPHeaderLayout

structure EthernetFields where
  destinationAddress : Vector UInt8 6
  sourceAddress : Vector UInt8 6
  ethernetType : BitVec 16

namespace EthernetFields

variable (f : EthernetFields)

def object : PackedObject EthernetFrameLayout.sizes where
  parts := [f.destinationAddress.toList, f.sourceAddress.toList, toBytesBE 2 f.ethernetType.toNat]
  parts_sizes := by simp [EthernetFrameLayout.sizes]

def encode : List UInt8 := f.object.bytes

lemma encode_length : f.encode.length = 14 :=
  f.object.bytes_length

structure ReadBack (object : List UInt8) : Prop where
  destinationAddress :
    EthernetFrameLayout.getDestinationAddress object = f.destinationAddress.toList
  sourceAddress : EthernetFrameLayout.getSourceAddress object = f.sourceAddress.toList
  ethernetType : EthernetFrameLayout.getEthernetType object = f.ethernetType.toNat

lemma encode_readBack : f.ReadBack f.encode where
  destinationAddress := f.object.field_bytes rfl
  sourceAddress := f.object.field_bytes rfl
  ethernetType := swap_get_field f.object rfl f.ethernetType.isLt

end EthernetFields

/-- The values of an IPv4 header; its options fill it up to its length in 32-bit words. -/
structure IPv4Fields where
  version : BitVec 4
  internetHeaderLength : BitVec 4
  dscpWithECN : UInt8
  totalLength : BitVec 16
  identification : BitVec 16
  flagsWithFragmentOffset : Vector UInt8 2
  timeToLive : UInt8
  protocol : UInt8
  headerChecksum : BitVec 16
  sourceIPAddress : BitVec 32
  destinationIPAddress : BitVec 32
  options : List UInt8
  options_length : 20 + options.length = 4 * internetHeaderLength.toNat

namespace IPv4Fields

variable (f : IPv4Fields)

def versionByte : Nat := 16 * f.version.toNat + f.internetHeaderLength.toNat

def object : PackedObject IPv4HeaderLayout.sizes where
  parts := [[UInt8.ofNat f.versionByte], [f.dscpWithECN], toBytesBE 2 f.totalLength.toNat,
    toBytesBE 2 f.identification.toNat, f.flagsWithFragmentOffset.toList, [f.timeToLive],
    [f.protocol], toBytesBE 2 f.headerChecksum.toNat, toBytesBE 4 f.sourceIPAddress.toNat,
    toBytesBE 4 f.destinationIPAddress.toNat]
  parts_sizes := by simp [IPv4HeaderLayout.sizes]

/-- The header without its options. -/
def encodeFixed : List UInt8 := f.object.bytes

def encode : List UInt8 := f.encodeFixed ++ f.options

lemma encodeFixed_length : f.encodeFixed.length = 20 :=
  f.object.bytes_length

lemma encode_length : f.encode.length = 4 * f.internetHeaderLength.toNat := by
  rw [encode, List.length_append, encodeFixed_length, f.options_length]

lemma version_encode :
    IPv4HeaderLayout.getVersionWithInternetHeaderLength f.encodeFixed =
        ⟨UInt8.ofNat f.versionByte⟩ ∧
      (UInt8.ofNat f.versionByte).toNat = 16 * f.version.toNat + f.internetHeaderLength.toNat := by
  have hversion := f.version.isLt
  have hlength := f.internetHeaderLength.isLt
  have hlt : f.versionByte < 256 := by
    unfold versionByte
    omega
  constructor
  · rw [IPv4HeaderLayout.getVersionWithInternetHeaderLength, encodeFixed,
      f.object.field_bytes rfl]
    rfl
  · rw [UInt8.toNat_ofNat_of_lt' hlt, versionByte]

structure ReadBack (object : List UInt8) : Prop where
  version : (IPv4HeaderLayout.getVersionWithInternetHeaderLength object).getVersion = f.version.toNat
  internetHeaderLength :
    (IPv4HeaderLayout.getVersionWithInternetHeaderLength object).getInternetHeaderLength =
      f.internetHeaderLength.toNat
  totalLength : IPv4HeaderLayout.getTotalLength object = f.totalLength.toNat
  identification : IPv4HeaderLayout.getIdentification object = f.identification.toNat
  timeToLive : IPv4HeaderLayout.getTimeToLive object = f.timeToLive.toNat
  protocol : IPv4HeaderLayout.getProtocol object = f.protocol.toNat
  headerChecksum : IPv4HeaderLayout.getHeaderChecksum object = f.headerChecksum.toNat
  sourceIPAddress : IPv4HeaderLayout.getSourceIPAddress object = f.sourceIPAddress.toNat
  destinationIPAddress :
    IPv4HeaderLayout.getDestinationIPAddress object = f.destinationIPAddress.toNat

lemma encodeFixed_readBack : f.ReadBack f.encodeFixed where
  version := by
    have hlength := f.internetHeaderLength.isLt
    rw [f.version_encode.1, VersionWithInternetHeaderLength.getVersion, f.version_encode.2,
      Nat.shiftRight_eq_div_pow]
    omega
  internetHeaderLength := by
    have hlength := f.internetHeaderLength.isLt
    rw [f.version_encode.1, VersionWithInternetHeaderLength.getInternetHeaderLength,
      f.version_encode.2, Nat.and_comm, Nat.and_two_pow_sub_one_eq_mod _ 4]
    omega
  totalLength := swap_get_field f.object rfl f.totalLength.isLt
  identification := swap_get_field f.object rfl f.identification.isLt
  timeToLive := get_byte_field f.object rfl
  protocol := get_byte_field f.object rfl
  headerChecksum := swap_get_field f.object rfl f.headerChecksum.isLt
  sourceIPAddress := swap_get_field f.object rfl f.sourceIPAddress.isLt
  destinationIPAddress := swap_get_field f.object rfl f.destinationIPAddress.isLt

end IPv4Fields

structure UDPFields where
  sourcePort : BitVec 16
  destinationPort : BitVec 16
  length : BitVec 16
  checksum : BitVec 16

namespace UDPFields

variable (f : UDPFields)

def object : PackedObject UDPHeaderLayout.sizes where
  parts := [toBytesBE 2 f.sourcePort.toNat, toBytesBE 2 f.destinationPort.toNat,
    toBytesBE 2 f.length.toNat, toBytesBE 2 f.checksum.toNat]
  parts_sizes := by simp [UDPHeaderLayout.sizes]

def encode : List UInt8 := f.object.bytes

lemma encode_length : f.encode.length = 8 :=
  f.object.bytes_length

structure ReadBack (object : List UInt8) : Prop where
  sourcePort : UDPHeaderLayout.getSourcePort object = f.sourcePort.toNat
  destinationPort : UDPHeaderLayout.getDestinationPort object = f.destinationPort.toNat
  length : UDPHeaderLayout.getLength object = f.length.toNat
  checksum : UDPHeaderLayout.getChecksum object = f.checksum.toNat

lemma encode_readBack : f.ReadBack f.encode where
  sourcePort := swap_get_field f.object rfl f.sourcePort.isLt
  destinationPort := swap_get_field f.object rfl f.destinationPort.isLt
  length := swap_get_field f.object rfl f.length.isLt
  checksum := swap_get_field f.object rfl f.checksum.isLt

end UDPFields

end CppBenchmark
