import CppBenchmark.Foundation.HexText
import CppBenchmark.Foundation.OutputStream
import CppBenchmark.Foundation.SeparatedText
import CppBenchmark.Network.Headers

/-!
# MAC addresses as text

An Ethernet frame prints its addresses byte by byte into a string stream. The fill character
and the base stay set from the first byte on, the width is set anew for each.
-/

namespace CppBenchmark

open OutputStream Stream HexText SeparatedText

/-- What the loop over the bytes carries along. -/
structure MACPrinter where
  useSeparator : Bool
  ss : Stream

namespace MACPrinter

def init : MACPrinter := ⟨false, ⟨Format.default, []⟩⟩

/-- The body of the loop. The byte is widened to a signed type, in which it is not negative. -/
def printByte (printer : MACPrinter) (c : UInt8) : MACPrinter :=
  let ss := printer.ss.insertString (if printer.useSeparator then [':'] else [])
  { useSeparator := true
    ss := (((ss.setfill '0').setw 2).hex).insertUnsigned c.toNat }

end MACPrinter

open MACPrinter

def getMACAddress (iBuffer : List UInt8) : List Char := (iBuffer.foldl printByte init).ss.text

def EthernetFrame.getDestinationMACAddress (object : List UInt8) : List Char :=
  getMACAddress (EthernetFrameLayout.getDestinationAddress object)

def EthernetFrame.getSourceMACAddress (object : List UInt8) : List Char :=
  getMACAddress (EthernetFrameLayout.getSourceAddress object)

namespace MACPrinter

/-- The formatting state between two bytes. -/
def format : Format :=
  { Format.default with flags := { Format.default.flags with base := .hex }, fill := '0' }

variable {printer : MACPrinter} {bytes : List UInt8}

/-- From the second byte on a step finds the formatting state that it leaves. -/
lemma printByte_eq (h : printer.ss.format = Format.default ∨ printer.ss.format = format) (c : UInt8) :
    printer.printByte c = ⟨true, ⟨format, printer.ss.text ++
      (if printer.useSeparator then [':'] else []) ++ hexCode c⟩⟩ := by
  obtain ⟨useSeparator, before, text⟩ := printer
  have hcode : padded { format with width := 2 } (basePrefix format.flags c.toNat)
      (digits format.flags c.toNat) = hexCode c := by
    rw [← leftpad_toDigits]
    exact @padded_hex { format with width := 2 } rfl rfl rfl rfl c.toNat
  have hwidth : before.width = 0 := by
    rcases h with rfl | rfl
    · rfl
    · rfl
  have hstep : printByte ⟨useSeparator, before, text⟩ c = ⟨true, format, text ++
      padded before [] (if useSeparator then [':'] else []) ++
        padded { format with width := 2 } (basePrefix format.flags c.toNat)
          (digits format.flags c.toNat)⟩ := by
    rcases h with rfl | rfl
    · rfl
    · rfl
  rw [hstep, hcode, padded_of_width hwidth, List.nil_append]

lemma foldl_printByte (bytes : List UInt8) (text : List Char) :
    bytes.foldl printByte ⟨true, format, text⟩ =
      ⟨true, format, text ++ bytes.flatMap (fun c => ':' :: hexCode c)⟩ := by
  induction bytes generalizing text with
  | nil => simp
  | cons c bytes ih =>
    rw [List.foldl_cons, printByte_eq (Or.inr rfl), ih, List.flatMap_cons]
    simp

end MACPrinter

lemma getMACAddress_eq (iBuffer : List UInt8) :
    getMACAddress iBuffer = [':'].intercalate (iBuffer.map hexCode) := by
  cases iBuffer with
  | nil => rfl
  | cons c iBuffer =>
    rw [getMACAddress, List.foldl_cons, printByte_eq (Or.inl rfl), foldl_printByte, List.map_cons,
      intercalate_cons, List.flatMap_map]
    rfl

/-- The text has a group of two lower-case hexadecimal digits for each byte, with colons
between the groups only, and the groups read back as the bytes. -/
structure PrintsColonHex (bytes : List UInt8) (text : List Char) : Prop where
  length : text.length = 3 * bytes.length - 1
  groups : (text.splitOn ':').length = bytes.length
  digits : ∀ group ∈ text.splitOn ':', group.length = 2 ∧ ∀ c ∈ group, c ∈ hexDigits
  leading : text.head? ≠ some ':'
  trailing : text.getLast? ≠ some ':'
  reads : (text.splitOn ':').map readHex = bytes.map (fun b => [b])

section ColonHex

variable {bytes bytes' iBuffer : List UInt8} {text : List Char}

lemma colon_not_mem (b : UInt8) : ':' ∉ hexCode b := by
  have hdigits : ':' ∉ hexDigits := by decide
  intro hmem
  exact hdigits (mem_hexDigits_of_mem_hexCode hmem)

lemma printsColonHex_intercalate (h : bytes ≠ []) :
    PrintsColonHex bytes ([':'].intercalate (bytes.map hexCode)) := by
  have hne : bytes.map hexCode ≠ [] := by simpa using h
  have hcolon : ∀ piece ∈ bytes.map hexCode, ':' ∉ piece :=
    List.forall_mem_map.mpr (fun b _ => colon_not_mem b)
  have htwo : ∀ piece ∈ bytes.map hexCode, piece.length = 2 :=
    List.forall_mem_map.mpr (fun b _ => rfl)
  have hnonempty : ∀ piece ∈ bytes.map hexCode, piece ≠ [] := by
    intro piece hpiece
    exact List.ne_nil_of_length_eq_add_one (htwo piece hpiece)
  have hsplit := List.splitOn_intercalate ':' hcolon hne
  refine ⟨?_, ?_, ?_, head?_intercalate_ne hcolon hnonempty,
    getLast?_intercalate_ne hcolon hnonempty, map_splitOn_intercalate colon_not_mem readHex_hexCode h⟩
  · rw [length_intercalate htwo hne, List.length_map]
  · rw [hsplit, List.length_map]
  · rw [hsplit]
    intro group hgroup
    obtain ⟨b, -, rfl⟩ := List.mem_map.mp hgroup
    exact ⟨rfl, fun c hc => mem_hexDigits_of_mem_hexCode hc⟩

/-- A text shows one sequence of bytes only. -/
lemma PrintsColonHex.inj (h : PrintsColonHex bytes text) (h' : PrintsColonHex bytes' text) :
    bytes = bytes' := by
  have hmap : bytes.map (fun b => [b]) = bytes'.map (fun b => [b]) := h.reads.symm.trans h'.reads
  exact List.map_injective_iff.mpr (fun _ _ heq => (List.cons.inj heq).1) hmap

/-- The text of every address that is not empty shows its bytes, and no other address has
the same text. -/
theorem getMACAddress_colonHex (h : iBuffer ≠ []) :
    PrintsColonHex iBuffer (getMACAddress iBuffer) ∧
      ∀ iBuffer', getMACAddress iBuffer' = getMACAddress iBuffer → iBuffer' = iBuffer := by
  have hprints : PrintsColonHex iBuffer (getMACAddress iBuffer) := by
    rw [getMACAddress_eq]
    exact printsColonHex_intercalate h
  refine ⟨hprints, ?_⟩
  intro iBuffer' heq
  by_cases hempty : iBuffer' = []
  · have hlength := hprints.length
    have hpos := List.length_pos_iff.mpr h
    rw [← heq, hempty] at hlength
    change 0 = 3 * iBuffer.length - 1 at hlength
    omega
  · have hprints' : PrintsColonHex iBuffer' (getMACAddress iBuffer) := by
      rw [← heq, getMACAddress_eq]
      exact printsColonHex_intercalate hempty
    exact hprints'.inj hprints

/-- A small byte, one above 0x7f, and the largest. -/
theorem getMACAddress_three : PrintsColonHex [0x05, 0x80, 0xff] "05:80:ff".toList ∧
    ∀ iBuffer', getMACAddress iBuffer' = "05:80:ff".toList → iBuffer' = [0x05, 0x80, 0xff] := by
  have htext : getMACAddress [0x05, 0x80, 0xff] = "05:80:ff".toList := by decide
  rw [← htext]
  exact getMACAddress_colonHex (List.cons_ne_nil _ _)

end ColonHex

namespace EthernetFields

variable (f : EthernetFields)

/-- A frame prints the addresses it was built with. -/
theorem getMACAddress_encode :
    EthernetFrame.getDestinationMACAddress f.encode =
        [':'].intercalate (f.destinationAddress.toList.map hexCode) ∧
      EthernetFrame.getSourceMACAddress f.encode =
        [':'].intercalate (f.sourceAddress.toList.map hexCode) := by
  rw [EthernetFrame.getDestinationMACAddress, EthernetFrame.getSourceMACAddress,
    f.encode_readBack.destinationAddress, f.encode_readBack.sourceAddress, getMACAddress_eq,
    getMACAddress_eq]
  exact ⟨rfl, rfl⟩

end EthernetFields

end CppBenchmark
