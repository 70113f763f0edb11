import CppBenchmark.Network.Headers
import CppBenchmark.Network.TCPHeader

/-!
# Frames with their headers

A frame is an Ethernet header, an IPv4 header with its options, a TCP header with its
options or a UDP header, and a payload. The payload pointers lead from layer to layer.
-/

namespace CppBenchmark

open ByteMemory PackedLayout

structure TCPSegment where
  fields : TCPFields
  options : List UInt8
  options_length : 20 + options.length = 4 * fields.dataOffset.toNat

namespace TCPSegment

def encode (segment : TCPSegment) : List UInt8 := segment.fields.encode ++ segment.options

lemma encode_length (segment : TCPSegment) :
    segment.encode.length = 4 * segment.fields.dataOffset.toNat := by
  rw [encode, List.length_append, TCPFields.encode_length, segment.options_length]

end TCPSegment

inductive Transport where
  | tcp (segment : TCPSegment)
  | udp (fields : UDPFields)

def Transport.encode : Transport → List UInt8
  | .tcp segment => segment.encode
  | .udp fields => fields.encode

structure Frame where
  ethernet : EthernetFields
  ipv4 : IPv4Fields
  transport : Transport
  payload : List UInt8

def Frame.encode (f : Frame) : List UInt8 :=
  f.ethernet.encode ++ (f.ipv4.encode ++ (f.transport.encode ++ f.payload))

section PayloadPointers

variable {m : Memory} {header : Nat}

lemma EthernetFrame.getPayload_eq (f : EthernetFields) (hlt : header + f.encode.length < 2 ^ 64) :
    EthernetFrame.getPayload header = header + f.encode.length := by
  rw [EthernetFields.encode_length] at hlt ⊢
  exact Nat.mod_eq_of_lt hlt

lemma IPv4Header.getPayload_eq {f : IPv4Fields} (hread : m.read header 20 = f.encodeFixed)
    (hlt : header + f.encode.length < 2 ^ 64) :
    IPv4Header.getPayload m header = header + f.encode.length := by
  rw [IPv4Header.getPayload, IPv4HeaderLayout.sizeof_sizes, hread,
    f.encodeFixed_readBack.internetHeaderLength, Nat.mul_comm, ← f.encode_length]
  exact Nat.mod_eq_of_lt hlt

lemma TCPHeader.getPayload_eq {segment : TCPSegment}
    (hread : m.read header 20 = segment.fields.encode)
    (hlt : header + segment.encode.length < 2 ^ 64) :
    TCPHeader.getPayload m header = header + segment.encode.length := by
  rw [TCPHeader.getPayload, TCPHeaderLayout.sizeof_sizes, hread,
    segment.fields.getDataOffset_encode, Nat.mul_comm, ← segment.encode_length]
  exact Nat.mod_eq_of_lt hlt

end PayloadPointers

/-- The payload pointers lead from a frame to its IPv4 header, its transport header and its
payload, and the accessors there return the values of the frame. -/
theorem encapsulation_recovered (f : Frame) (m : Memory) (frame : Nat)
    (hread : m.read frame f.encode.length = f.encode) (hlt : frame + f.encode.length < 2 ^ 64) :
    EthernetFrameLayout.getEthernetType (m.read frame (sizeof EthernetFrameLayout.sizes)) =
        f.ethernet.ethernetType.toNat ∧
      ∃ ipv4Header transportHeader,
        EthernetFrame.getPayload frame = ipv4Header ∧
        f.ipv4.ReadBack (m.read ipv4Header (sizeof IPv4HeaderLayout.sizes)) ∧
        IPv4Header.getPayload m ipv4Header = transportHeader ∧
        transportHeader = frame + (f.ethernet.encode ++ f.ipv4.encode).length ∧
        m.read transportHeader f.transport.encode.length = f.transport.encode ∧
        (∀ segment, f.transport = .tcp segment →
          TCPHeader.getPayload m transportHeader = transportHeader + segment.encode.length ∧
          m.read (TCPHeader.getPayload m transportHeader) f.payload.length = f.payload) ∧
        (∀ fields, f.transport = .udp fields →
          fields.ReadBack (m.read transportHeader (sizeof UDPHeaderLayout.sizes))) := by
  obtain ⟨hethernet, hrest⟩ := Memory.read_append hread
  obtain ⟨hipv4, hrest⟩ := Memory.read_append hrest
  obtain ⟨htransport, hpayload⟩ := Memory.read_append hrest
  simp only [Frame.encode, List.length_append] at hlt
  have hfixed : m.read (frame + f.ethernet.encode.length) 20 = f.ipv4.encodeFixed := by
    rw [← f.ipv4.encodeFixed_length]
    exact (Memory.read_append hipv4).1
  refine ⟨?_, frame + f.ethernet.encode.length,
    frame + f.ethernet.encode.length + f.ipv4.encode.length,
    EthernetFrame.getPayload_eq f.ethernet (by omega), ?_, IPv4Header.getPayload_eq hfixed (by omega),
    by rw [List.length_append, Nat.add_assoc], htransport, ?_, ?_⟩
  · rw [EthernetFrameLayout.sizeof_sizes, ← f.ethernet.encode_length, hethernet,
      f.ethernet.encode_readBack.ethernetType]
  · rw [IPv4HeaderLayout.sizeof_sizes, hfixed]
    exact f.ipv4.encodeFixed_readBack
  · intro segment hsegment
    rw [hsegment] at htransport hpayload hlt
    have hheader : m.read (frame + f.ethernet.encode.length + f.ipv4.encode.length) 20 =
        segment.fields.encode := by
      rw [← segment.fields.encode_length]
      exact (Memory.read_append htransport).1
    have hnext := TCPHeader.getPayload_eq hheader (by rw [Transport.encode] at hlt; omega)
    refine ⟨hnext, ?_⟩
    rw [hnext]
    exact hpayload
  · intro fields hfields
    rw [hfields, Transport.encode, fields.encode_length] at htransport
    rw [UDPHeaderLayout.sizeof_sizes, htransport]
    exact fields.encode_readBack

/-- A frame with one word of IPv4 options and a payload of two bytes. -/
def sampleFrame : Frame where
  ethernet := ⟨Vector.replicate 6 0xff, Vector.replicate 6 1, 0x0800⟩
  ipv4 := {
    version := 4
    internetHeaderLength := 6
    dscpWithECN := 0
    totalLength := 46
    identification := 7
    flagsWithFragmentOffset := Vector.replicate 2 0
    timeToLive := 64
    protocol := 6
    headerChecksum := 0
    sourceIPAddress := 0x0a000001
    destinationIPAddress := 0x0a000002
    options := [1, 1, 1, 0]
    options_length := rfl }
  transport := .tcp ⟨synHeader, [], rfl⟩
  payload := [0xaa, 0xbb]

theorem encapsulation_recovered_sample :
    let m := Memory.write (fun _ => 0) 4096 sampleFrame.encode
    TCPHeader.getPayload m (IPv4Header.getPayload m (EthernetFrame.getPayload 4096)) = 4154 ∧
      m.read 4154 2 = [0xaa, 0xbb] := by
  intro m
  obtain ⟨-, _, _, rfl, -, rfl, haddress, -, htcp, -⟩ :=
    encapsulation_recovered sampleFrame m 4096 (Memory.read_write _ 4096 sampleFrame.encode)
      (by decide)
  obtain ⟨hpointer, hpayload⟩ := htcp _ rfl
  have hvalue : TCPHeader.getPayload m (IPv4Header.getPayload m (EthernetFrame.getPayload 4096)) =
      4154 := by
    rw [hpointer, haddress]
    decide
  rw [hvalue] at hpayload
  exact ⟨hvalue, hpayload⟩

end CppBenchmark
