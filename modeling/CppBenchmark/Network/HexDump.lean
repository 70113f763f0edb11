import CppBenchmark.Foundation.HexText
import CppBenchmark.Foundation.OutputStream
import CppBenchmark.Foundation.TextLines
import CppBenchmark.Properties.DecimalDecoders

/-!
# Hex dumps

`HexDump` prints a buffer to a stream, sixteen bytes a line, as hexadecimal codes and as
characters. It sets the fill character and the base, and restores the flags at the end.
-/

namespace CppBenchmark

open OutputStream Stream HexText TextLines

/-- `std::isprint` in the `"C"` locale. -/
def isprint (c : Int) : Bool := decide (0x20 ≤ c ∧ c ≤ 0x7e)

namespace HexDump

def hexCharacters : List Char := "0123456789abcdef".toList

def step : Nat := 16

structure ScratchLine where
  hexValues : List Char
  asciiValues : List Char

/-- Byte `j` of the line at `i`. The masks leave no bit of the sign of `c`. -/
def dumpByte (iBuffer : List UInt8) (i j : Nat) (line : ScratchLine) : ScratchLine :=
  let c := iBuffer.getD (i + j) 0
  { hexValues := (line.hexValues.set (j * 2) (hexCharacters.getD ((c &&& 0xf0) >>> 4).toNat '0')).set
      (j * 2 + 1) (hexCharacters.getD (c &&& 0x0f).toNat '0')
    asciiValues := line.asciiValues ++
      [if isprint (charValue c) then Char.ofNat c.toNat else '.'] }

/-- The loop over `j`, which ends at the step or at the end of the buffer. -/
def scratchLine (iBuffer : List UInt8) (iLength i : Nat) : ScratchLine :=
  ((List.range step).takeWhile (fun j => i + j < iLength)).foldl
    (fun line j => dumpByte iBuffer i j line) ⟨List.replicate (step * 2) ' ', []⟩

/-- The four characters of `hexValues` at each `j`, with a blank after them. -/
def dumpGroups (hexValues : List Char) (os : Stream) : Stream :=
  (List.range' 0 8 4).foldl
    (fun os j => (os.insertString ((hexValues.drop j).take 4)).insertString [' ']) os

def dumpLine (iBuffer : List UInt8) (iLength i : Nat) (os : Stream) : Stream :=
  let line := scratchLine iBuffer iLength i
  let os := (os.insertString ['\t']).insertString ['0', 'x']
  let os := (((os.setfill '0').setw 4).hex).insertUnsigned i
  let os := dumpGroups line.hexValues (os.insertString [':', ' ', ' '])
  ((os.insertString [' ']).insertString line.asciiValues).endl

/-- The loop over `i`; below a length of `2 ^ 63` the index does not wrap around. -/
def dumpLines (iBuffer : List UInt8) (iLength i : Nat) (os : Stream) : Stream :=
  if i < iLength then dumpLines iBuffer iLength (i + step) (dumpLine iBuffer iLength i os) else os
termination_by iLength - i
decreasing_by
  unfold step
  omega

end HexDump

open HexDump

def hexDump (iBuffer : List UInt8) (os : Stream) : Stream :=
  let iLength := iBuffer.length
  let previousIOFlags := os.format.flags
  let os := os.insertString "HexDump [Length=".toList
  let os := ((os.insertUnsigned iLength).insertString "]:".toList).endl
  (dumpLines iBuffer iLength 0 os).setFlags previousIOFlags

section Format

variable {iBuffer : List UInt8} {iLength i : Nat} {os : Stream}

lemma format_dumpGroups (hexValues : List Char) (h : os.format.width = 0) :
    (dumpGroups hexValues os).format = os.format := by
  unfold dumpGroups
  induction List.range' 0 8 4 generalizing os with
  | nil => rfl
  | cons j js ih =>
    have hformat : ((os.insertString ((hexValues.drop j).take 4)).insertString [' ']).format =
        os.format := by
      simp [← h]
    rw [List.foldl_cons, ih (by rw [hformat, h]), hformat]

/-- A line leaves its base and its fill character behind. -/
lemma format_dumpLine (iBuffer : List UInt8) (iLength i : Nat) (os : Stream) :
    (dumpLine iBuffer iLength i os).format =
      { os.format with flags := { os.format.flags with base := .hex }, fill := '0', width := 0 } := by
  unfold dumpLine
  rw [format_endl, format_insertString, format_insertString, format_dumpGroups _ rfl]
  rfl

lemma format_dumpLines (h : os.format.width = 0) (flags : Flags) :
    { (dumpLines iBuffer iLength i os).format with flags := flags } =
      { os.format with flags := flags, fill := if i < iLength then '0' else os.format.fill } := by
  fun_induction dumpLines iBuffer iLength i os with
  | case1 i os hlt ih =>
    rw [ih (by rw [format_dumpLine])]
    simp [format_dumpLine, hlt, h]
  | case2 i os hlt => simp [hlt]

/-- What a dump leaves of the formatting state: the flags are restored, and the fill
character only when there was no line to print. -/
lemma format_hexDump (iBuffer : List UInt8) (os : Stream) :
    (hexDump iBuffer os).format =
      { os.format with fill := if iBuffer = [] then os.format.fill else '0', width := 0 } := by
  have hlength : 0 < iBuffer.length ↔ ¬iBuffer = [] := List.length_pos_iff
  unfold hexDump
  rw [format_setFlags, format_dumpLines rfl]
  by_cases hempty : iBuffer = []
  · simp [hempty]
  · simp [hempty, hlength.mpr hempty]

end Format

/-- Numbers are printed right-adjusted, in lower case and without a base. -/
structure PlainFormat (format : Format) : Prop where
  width : format.width = 0
  adjust : format.flags.adjust = .right
  showbase : format.flags.showbase = false
  uppercase : format.flags.uppercase = false

/-- The groups of a line, each with a blank after it. -/
def groupsText (hexValues : List Char) : List Char :=
  (List.range' 0 8 4).flatMap (fun j => (hexValues.drop j).take 4 ++ [' '])

def offsetText (i : Nat) : List Char := List.leftpad 4 '0' (Nat.toDigits 16 i)

/-- The text of the line at `i`. -/
def lineText (iBuffer : List UInt8) (iLength i : Nat) : List Char :=
  let line := scratchLine iBuffer iLength i
  ['\t', '0', 'x'] ++ offsetText i ++ [':', ' ', ' '] ++ groupsText line.hexValues ++ [' '] ++
    line.asciiValues

def headerText (iLength : Nat) : List Char :=
  "HexDump [Length=".toList ++ Nat.toDigits 10 iLength ++ "]:".toList

section Text

variable {iBuffer : List UInt8} {iLength i : Nat} {os : Stream}

lemma text_dumpGroups (hexValues : List Char) (h : os.format.width = 0) :
    (dumpGroups hexValues os).text = os.text ++ groupsText hexValues := by
  unfold dumpGroups groupsText
  induction List.range' 0 8 4 generalizing os with
  | nil => simp
  | cons j js ih =>
    have hformat : ((os.insertString ((hexValues.drop j).take 4)).insertString [' ']).format.width =
        0 := rfl
    rw [List.foldl_cons, ih hformat, text_insertString rfl, text_insertString h, List.flatMap_cons]
    simp

/-- The offset is printed in the base and with the fill character and the width set for it. -/
lemma padded_offset {format : Format} (hfill : format.fill = '0') (hwidth : format.width = 4)
    (hbase : format.flags.base = .hex) (hadjust : format.flags.adjust = .right)
    (hshowbase : format.flags.showbase = false) (huppercase : format.flags.uppercase = false) :
    padded format (basePrefix format.flags i) (digits format.flags i) = offsetText i := by
  rw [padded_hex hbase hadjust hshowbase huppercase, hwidth, hfill, offsetText]

lemma text_dumpLine (h : PlainFormat os.format) : (dumpLine iBuffer iLength i os).text =
    os.text ++ (lineText iBuffer iLength i ++ ['\n']) := by
  unfold dumpLine
  have hgroups : ∀ os : Stream, os.format.width = 0 →
      (dumpGroups (scratchLine iBuffer iLength i).hexValues os).format.width = 0 := by
    intro os h
    rw [format_dumpGroups _ h, h]
  rw [text_endl, text_insertString rfl, text_insertString (hgroups _ rfl), text_dumpGroups _ rfl,
    text_insertString rfl, text_insertUnsigned]
  simp only [text_hex, text_setw, text_setfill]
  rw [text_insertString rfl, text_insertString h.width]
  rw [padded_offset, lineText]
  · simp
  · rfl
  · rfl
  · rfl
  · exact h.adjust
  · exact h.showbase
  · exact h.uppercase

lemma plain_dumpLine (h : PlainFormat os.format) :
    PlainFormat (dumpLine iBuffer iLength i os).format := by
  rw [format_dumpLine]
  exact ⟨rfl, h.adjust, h.showbase, h.uppercase⟩

/-- The offsets of the lines from `i` on. -/
def lineOffsets (iLength i : Nat) : List Nat :=
  (List.range ((iLength - i + 15) / 16)).map (fun k => i + 16 * k)

lemma lineOffsets_cons (h : i < iLength) :
    lineOffsets iLength i = i :: lineOffsets iLength (i + step) := by
  have hcount : (iLength - i + 15) / 16 = (iLength - (i + step) + 15) / 16 + 1 := by
    unfold step
    omega
  unfold lineOffsets
  rw [hcount, List.range_succ_eq_map, List.map_cons, List.map_map]
  congr 1
  apply List.map_congr_left
  intro k _
  simp only [Function.comp_apply, step]
  omega

lemma lineOffsets_nil (h : ¬i < iLength) : lineOffsets iLength i = [] := by
  have hcount : (iLength - i + 15) / 16 = 0 := by omega
  rw [lineOffsets, hcount, List.range_zero, List.map_nil]

lemma text_dumpLines (h : PlainFormat os.format) : (dumpLines iBuffer iLength i os).text =
    os.text ++ joinLines ((lineOffsets iLength i).map (lineText iBuffer iLength)) := by
  fun_induction dumpLines iBuffer iLength i os with
  | case1 i os hlt ih =>
    rw [ih (plain_dumpLine h), text_dumpLine h, lineOffsets_cons hlt, List.map_cons,
      joinLines_cons, List.append_assoc]
  | case2 i os hlt =>
    rw [lineOffsets_nil hlt, List.map_nil, joinLines_nil, List.append_nil]

lemma text_aroundNumber (h : PlainFormat os.format) (hbase : os.format.flags.base = .dec) (n : Nat)
    (before after : List Char) :
    (((os.insertString before).insertUnsigned n).insertString after).text =
      os.text ++ (before ++ Nat.toDigits 10 n ++ after) := by
  have hnumber : padded { os.format with width := 0 } (basePrefix os.format.flags n)
      (digits os.format.flags n) = Nat.toDigits 10 n := by
    rw [padded_of_width rfl]
    simp [basePrefix, digits, hbase, h.showbase, h.uppercase]
  rw [text_insertString rfl, text_insertUnsigned, format_insertString, hnumber,
    text_insertString h.width, List.append_assoc, List.append_assoc, List.append_assoc]

/-- The text of a dump in the default formatting state. -/
lemma text_hexDump (h : os.format = Format.default) : (hexDump iBuffer os).text =
    os.text ++ joinLines (headerText iBuffer.length ::
      (lineOffsets iBuffer.length 0).map (lineText iBuffer iBuffer.length)) := by
  have hplain : PlainFormat os.format := by
    rw [h]
    exact ⟨rfl, rfl, rfl, rfl⟩
  have hbase : os.format.flags.base = .dec := by
    rw [h]
    rfl
  have hheader : PlainFormat (((os.insertString "HexDump [Length=".toList).insertUnsigned
      iBuffer.length).insertString "]:".toList).endl.format :=
    ⟨rfl, hplain.adjust, hplain.showbase, hplain.uppercase⟩
  have htext : (((os.insertString "HexDump [Length=".toList).insertUnsigned
      iBuffer.length).insertString "]:".toList).text = os.text ++ headerText iBuffer.length :=
    text_aroundNumber hplain hbase _ _ _
  unfold hexDump
  rw [text_setFlags, text_dumpLines hheader, text_endl, htext, joinLines_cons, List.append_assoc,
    List.append_assoc, List.append_assoc (headerText _)]

end Text

end CppBenchmark
