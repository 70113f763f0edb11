import CppBenchmark.Allocators.MemoryPool
import CppBenchmark.Properties.SwapEndianness
import Mathlib.Data.Nat.Bitwise

/-!
# The TCP header

`TCPHeader` overlays the first 20 bytes of a TCP segment. Its multi-byte fields are read
in network order; the data offset and the flags share two bytes.
-/

namespace CppBenchmark

open ByteMemory PackedLayout

def getBit (byte : UInt8) (bitPosition : Nat) : Bool := 0 != (byte.toNat &&& (1 <<< bitPosition))

lemma getBit_eq (byte : UInt8) (bitPosition : Nat) :
    getBit byte bitPosition = decide (byte.toNat / 2 ^ bitPosition % 2 = 1) := by
  rw [← Nat.testBit_eq_decide_div_mod_eq, getBit, Nat.one_shiftLeft, Nat.and_two_pow]
  have hpow : 0 ≠ 2 ^ bitPosition := (Nat.two_pow_pos bitPosition).ne
  cases byte.toNat.testBit bitPosition <;> simp [hpow]

structure DataOffSetWithFlags where
  dataOffsetWithNS : UInt8
  controlBits : UInt8

namespace DataOffSetWithFlags

def ofBytes (object : List UInt8) : DataOffSetWithFlags := ⟨object.getD 0 0, object.getD 1 0⟩

variable (flags : DataOffSetWithFlags)

def getDataOffset : Nat := flags.dataOffsetWithNS.toNat >>> 4

def getNS : Bool := getBit flags.dataOffsetWithNS 7

def getCWR : Bool := getBit flags.controlBits 0

def getECE : Bool := getBit flags.controlBits 1

def getURG : Bool := getBit flags.controlBits 2

def getACK : Bool := getBit flags.controlBits 3

def getPSH : Bool := getBit flags.controlBits 4

def getRST : Bool := getBit flags.controlBits 5

def getSYN : Bool := getBit flags.controlBits 6

def getFIN : Bool := getBit flags.controlBits 7

end DataOffSetWithFlags

namespace TCPHeaderLayout

/-- SourcePort, DestinationPort, SequenceNumber, AcknowledgmentNumber, DataOffSetWithFlags,
WindowSize, CheckSum, UrgentPointer. -/
def sizes : List Nat := [2, 2, 4, 4, 2, 2, 2, 2]

lemma sizeof_sizes : sizeof sizes = 20 := rfl

variable (object : List UInt8)

def getSourcePort : Nat := SwapEndiannessProperty.get (field sizes object 0)

def getDestinationPort : Nat := SwapEndiannessProperty.get (field sizes object 1)

def getSequenceNumber : Nat := SwapEndiannessProperty.get (field sizes object 2)

def getAcknowledgmentNumber : Nat := SwapEndiannessProperty.get (field sizes object 3)

def getDataOffSetWithFlags : DataOffSetWithFlags :=
  DataOffSetWithFlags.ofBytes (field sizes object 4)

def getWindowSize : Nat := SwapEndiannessProperty.get (field sizes object 5)

def getCheckSum : Nat := SwapEndiannessProperty.get (field sizes object 6)

def getUrgentPointer : Nat := SwapEndiannessProperty.get (field sizes object 7)

end TCPHeaderLayout

def TCPHeader.getPayload (m : Memory) (header : Nat) : Nat :=
  ptrAdd header ((TCPHeaderLayout.getDataOffSetWithFlags
    (m.read header (sizeof TCPHeaderLayout.sizes))).getDataOffset * 4)

structure TCPFields where
  sourcePort : BitVec 16
  destinationPort : BitVec 16
  sequenceNumber : BitVec 32
  acknowledgmentNumber : BitVec 32
  dataOffset : BitVec 4
  reserved : BitVec 3
  ns : Bool
  cwr : Bool
  ece : Bool
  urg : Bool
  ack : Bool
  psh : Bool
  rst : Bool
  syn : Bool
  fin : Bool
  windowSize : BitVec 16
  checkSum : BitVec 16
  urgentPointer : BitVec 16

namespace TCPFields

variable (f : TCPFields)

/-- Byte 12: the data offset in the high nibble, the reserved bits, NS in the lowest bit. -/
def offsetByte : Nat := 16 * f.dataOffset.toNat + 2 * f.reserved.toNat + f.ns.toNat

/-- Byte 13: the flags from CWR in the highest bit down to FIN in the lowest. -/
def controlByte : Nat :=
  128 * f.cwr.toNat + 64 * f.ece.toNat + 32 * f.urg.toNat + 16 * f.ack.toNat + 8 * f.psh.toNat +
    4 * f.rst.toNat + 2 * f.syn.toNat + f.fin.toNat

def object : PackedObject TCPHeaderLayout.sizes where
  parts := [toBytesBE 2 f.sourcePort.toNat, toBytesBE 2 f.destinationPort.toNat,
    toBytesBE 4 f.sequenceNumber.toNat, toBytesBE 4 f.acknowledgmentNumber.toNat,
    [UInt8.ofNat f.offsetByte, UInt8.ofNat f.controlByte],
    toBytesBE 2 f.windowSize.toNat, toBytesBE 2 f.checkSum.toNat, toBytesBE 2 f.urgentPointer.toNat]
  parts_sizes := by simp [TCPHeaderLayout.sizes]

/-- The header on the wire. -/
def encode : List UInt8 := f.object.bytes

lemma encode_length : f.encode.length = 20 :=
  f.object.bytes_length

lemma offsetByte_lt : f.offsetByte < 256 := by
  have hoffset := f.dataOffset.isLt
  have hreserved := f.reserved.isLt
  have hns := f.ns.toNat_lt
  unfold offsetByte
  omega

lemma controlByte_bits :
    f.controlByte < 256 ∧ f.controlByte / 2 ^ 0 % 2 = f.fin.toNat ∧
      f.controlByte / 2 ^ 1 % 2 = f.syn.toNat ∧ f.controlByte / 2 ^ 2 % 2 = f.rst.toNat ∧
      f.controlByte / 2 ^ 3 % 2 = f.psh.toNat ∧ f.controlByte / 2 ^ 4 % 2 = f.ack.toNat ∧
      f.controlByte / 2 ^ 5 % 2 = f.urg.toNat ∧ f.controlByte / 2 ^ 6 % 2 = f.ece.toNat ∧
      f.controlByte / 2 ^ 7 % 2 = f.cwr.toNat := by
  have hcwr := f.cwr.toNat_lt
  have hece := f.ece.toNat_lt
  have hurg := f.urg.toNat_lt
  have hack := f.ack.toNat_lt
  have hpsh := f.psh.toNat_lt
  have hrst := f.rst.toNat_lt
  have hsyn := f.syn.toNat_lt
  have hfin := f.fin.toNat_lt
  unfold controlByte
  omega

lemma getDataOffSetWithFlags_encode :
    TCPHeaderLayout.getDataOffSetWithFlags f.encode =
      ⟨UInt8.ofNat f.offsetByte, UInt8.ofNat f.controlByte⟩ := by
  rw [TCPHeaderLayout.getDataOffSetWithFlags, encode, f.object.field_bytes rfl]
  rfl

lemma getDataOffset_encode :
    (TCPHeaderLayout.getDataOffSetWithFlags f.encode).getDataOffset = f.dataOffset.toNat := by
  have hreserved := f.reserved.isLt
  have hns := f.ns.toNat_lt
  rw [getDataOffSetWithFlags_encode, DataOffSetWithFlags.getDataOffset,
    UInt8.toNat_ofNat_of_lt' f.offsetByte_lt, Nat.shiftRight_eq_div_pow]
  unfold offsetByte
  omega

/-- The flag getters read the control byte from the other end, and NS from the data offset. -/
structure FlagsMirrored (flags : DataOffSetWithFlags) : Prop where
  ns : flags.getNS = decide (8 ≤ f.dataOffset.toNat)
  cwr : flags.getCWR = f.fin
  ece : flags.getECE = f.syn
  urg : flags.getURG = f.rst
  ack : flags.getACK = f.psh
  psh : flags.getPSH = f.ack
  rst : flags.getRST = f.urg
  syn : flags.getSYN = f.ece
  fin : flags.getFIN = f.cwr

lemma encode_flagsMirrored :
    f.FlagsMirrored (TCPHeaderLayout.getDataOffSetWithFlags f.encode) := by
  obtain ⟨hlt, h0, h1, h2, h3, h4, h5, h6, h7⟩ := f.controlByte_bits
  have hbit : ∀ {bitPosition : Nat} {flag : Bool},
      f.controlByte / 2 ^ bitPosition % 2 = flag.toNat →
        getBit (UInt8.ofNat f.controlByte) bitPosition = flag := by
    intro bitPosition flag h
    rw [getBit_eq, UInt8.toNat_ofNat_of_lt' hlt, h]
    cases flag <;> rfl
  have hns : getBit (UInt8.ofNat f.offsetByte) 7 = decide (8 ≤ f.dataOffset.toNat) := by
    have hoffset := f.offsetByte_lt
    have hreserved := f.reserved.isLt
    have hns := f.ns.toNat_lt
    rw [getBit_eq, UInt8.toNat_ofNat_of_lt' hoffset, decide_eq_decide]
    unfold offsetByte at hoffset ⊢
    omega
  rw [getDataOffSetWithFlags_encode]
  exact ⟨hns, hbit h0, hbit h1, hbit h2, hbit h3, hbit h4, hbit h5, hbit h6, hbit h7⟩

/-- The accessors that return a number return the one they are named after. -/
structure NumbersReadBack (object : List UInt8) : Prop where
  sourcePort : TCPHeaderLayout.getSourcePort object = f.sourcePort.toNat
  destinationPort : TCPHeaderLayout.getDestinationPort object = f.destinationPort.toNat
  sequenceNumber : TCPHeaderLayout.getSequenceNumber object = f.sequenceNumber.toNat
  acknowledgmentNumber : TCPHeaderLayout.getAcknowledgmentNumber object = f.acknowledgmentNumber.toNat
  dataOffset : (TCPHeaderLayout.getDataOffSetWithFlags object).getDataOffset = f.dataOffset.toNat
  windowSize : TCPHeaderLayout.getWindowSize object = f.windowSize.toNat
  checkSum : TCPHeaderLayout.getCheckSum object = f.checkSum.toNat
  urgentPointer : TCPHeaderLayout.getUrgentPointer object = f.urgentPointer.toNat

lemma encode_numbersReadBack : f.NumbersReadBack f.encode where
  sourcePort := swap_get_field f.object rfl f.sourcePort.isLt
  destinationPort := swap_get_field f.object rfl f.destinationPort.isLt
  sequenceNumber := swap_get_field f.object rfl f.sequenceNumber.isLt
  acknowledgmentNumber := swap_get_field f.object rfl f.acknowledgmentNumber.isLt
  dataOffset := f.getDataOffset_encode
  windowSize := swap_get_field f.object rfl f.windowSize.isLt
  checkSum := swap_get_field f.object rfl f.checkSum.isLt
  urgentPointer := swap_get_field f.object rfl f.urgentPointer.isLt

/-- Every accessor returns the value it is named after. -/
structure ReadBack (object : List UInt8) : Prop where
  sourcePort : TCPHeaderLayout.getSourcePort object = f.sourcePort.toNat
  destinationPort : TCPHeaderLayout.getDestinationPort object = f.destinationPort.toNat
  sequenceNumber : TCPHeaderLayout.getSequenceNumber object = f.sequenceNumber.toNat
  acknowledgmentNumber : TCPHeaderLayout.getAcknowledgmentNumber object = f.acknowledgmentNumber.toNat
  dataOffset : (TCPHeaderLayout.getDataOffSetWithFlags object).getDataOffset = f.dataOffset.toNat
  ns : (TCPHeaderLayout.getDataOffSetWithFlags object).getNS = f.ns
  cwr : (TCPHeaderLayout.getDataOffSetWithFlags object).getCWR = f.cwr
  ece : (TCPHeaderLayout.getDataOffSetWithFlags object).getECE = f.ece
  urg : (TCPHeaderLayout.getDataOffSetWithFlags object).getURG = f.urg
  ack : (TCPHeaderLayout.getDataOffSetWithFlags object).getACK = f.ack
  psh : (TCPHeaderLayout.getDataOffSetWithFlags object).getPSH = f.psh
  rst : (TCPHeaderLayout.getDataOffSetWithFlags object).getRST = f.rst
  syn : (TCPHeaderLayout.getDataOffSetWithFlags object).getSYN = f.syn
  fin : (TCPHeaderLayout.getDataOffSetWithFlags object).getFIN = f.fin
  windowSize : TCPHeaderLayout.getWindowSize object = f.windowSize.toNat
  checkSum : TCPHeaderLayout.getCheckSum object = f.checkSum.toNat
  urgentPointer : TCPHeaderLayout.getUrgentPointer object = f.urgentPointer.toNat

/-- The accessors invert the wire format exactly when the flags of a header are the same
read from either end and NS repeats the top bit of the data offset. -/
theorem tcp_readBack_iff (f : TCPFields) :
    f.ReadBack f.encode ↔
      f.ns = decide (8 ≤ f.dataOffset.toNat) ∧ f.cwr = f.fin ∧ f.ece = f.syn ∧ f.urg = f.rst ∧
        f.ack = f.psh := by
  obtain ⟨hns, hcwr, hece, hurg, hack, hpsh, hrst, hsyn, hfin⟩ := f.encode_flagsMirrored
  constructor
  · intro h
    exact ⟨h.ns.symm.trans hns, h.cwr.symm.trans hcwr, h.ece.symm.trans hece,
      h.urg.symm.trans hurg, h.ack.symm.trans hack⟩
  · rintro ⟨hn, hcf, hes, hur, hap⟩
    exact { f.encode_numbersReadBack with
      ns := hns.trans hn.symm
      cwr := hcwr.trans hcf.symm
      ece := hece.trans hes.symm
      urg := hurg.trans hur.symm
      ack := hack.trans hap.symm
      psh := hpsh.trans hap
      rst := hrst.trans hur
      syn := hsyn.trans hes
      fin := hfin.trans hcf }

end TCPFields

/-- The first segment of a handshake: SYN and no other flag. -/
def synHeader : TCPFields where
  sourcePort := 44132
  destinationPort := 443
  sequenceNumber := 761199867
  acknowledgmentNumber := 0
  dataOffset := 5
  reserved := 0
  ns := false
  cwr := false
  ece := false
  urg := false
  ack := false
  psh := false
  rst := false
  syn := true
  fin := false
  windowSize := 363
  checkSum := 0
  urgentPointer := 0

theorem synHeader_not_readBack : ¬ synHeader.ReadBack synHeader.encode := by
  intro h
  exact absurd h.syn (by decide)

end CppBenchmark
