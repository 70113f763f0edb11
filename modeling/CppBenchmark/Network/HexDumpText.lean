import CppBenchmark.Network.HexDump

/-!
# The text of a hex dump

A header line with the length, and a line for each sixteen bytes: the offset, the codes of
the bytes in eight groups, and one character for each byte. The codes give the buffer back.
-/

namespace CppBenchmark

open OutputStream HexText TextLines HexDump

/-- A byte in the last column. -/
def asciiChar (b : UInt8) : Char := if isprint (charValue b) then Char.ofNat b.toNat else '.'

/-- The bytes of line `k`. -/
def lineBytes (iBuffer : List UInt8) (k : Nat) : List UInt8 := (iBuffer.drop (16 * k)).take 16

def isBlank (c : Char) : Bool := c = ' '

/-- Line `k` of a dump, for the bytes it shows. -/
def DumpedLine (k : Nat) (bytes : List UInt8) (line : List Char) : Prop :=
  ∃ groups : List (List Char), groups.length = 8 ∧ (∀ group ∈ groups, group.length = 4) ∧
    groups.flatten.filter (fun c => !isBlank c) = bytes.flatMap hexCode ∧
    line = ['\t', '0', 'x'] ++ List.leftpad 4 '0' (Nat.toDigits 16 (16 * k)) ++ [':', ' ', ' '] ++
      groups.flatMap (fun group => group ++ [' ']) ++ [' '] ++ bytes.map asciiChar

section Scratch

variable {iBuffer : List UInt8} {i k : Nat}

lemma takeWhile_range (n L i : Nat) :
    (List.range n).takeWhile (fun j => i + j < L) = List.range (min n (L - i)) := by
  induction n with
  | zero => simp
  | succ n ih =>
    rw [List.range_succ, List.takeWhile_append, ih, List.length_range, List.length_range]
    by_cases hlt : i + n < L
    · have hmin : min n (L - i) = n := by omega
      have hmin' : min (n + 1) (L - i) = n + 1 := by omega
      simp [hmin, hmin', hlt, List.range_succ]
    · by_cases hall : min n (L - i) = n
      · have hmin' : min (n + 1) (L - i) = n := by omega
        simp [hmin', hlt, hall]
      · have hmin' : min (n + 1) (L - i) = min n (L - i) := by omega
        simp [hall, hmin']

lemma high_nibble (c : UInt8) : ((c &&& 0xf0) >>> 4).toNat = c.toNat / 16 := by
  have hc := c.toNat_lt
  have hmask : (c.toNat >>> 4) &&& 15 = c.toNat / 16 := by
    rw [Nat.shiftRight_eq_div_pow, Nat.and_two_pow_sub_one_eq_mod _ 4]
    exact Nat.mod_eq_of_lt (by omega)
  rw [UInt8.toNat_shiftRight, UInt8.toNat_and]
  change (c.toNat &&& 240) >>> 4 = c.toNat / 16
  rw [Nat.shiftRight_and_distrib]
  exact hmask

lemma low_nibble (c : UInt8) : (c &&& 0x0f).toNat = c.toNat % 16 := by
  rw [UInt8.toNat_and]
  exact Nat.and_two_pow_sub_one_eq_mod c.toNat 4

lemma hexCharacters_nibble (c : UInt8) :
    [hexCharacters.getD ((c &&& 0xf0) >>> 4).toNat '0', hexCharacters.getD (c &&& 0x0f).toNat '0'] =
      hexCode c := by
  have hc := c.toNat_lt
  have hhigh : hexCharacters.getD (c.toNat / 16) '0' = Nat.digitChar (c.toNat / 16) :=
    hexDigits_getD (by omega)
  have hlow : hexCharacters.getD (c.toNat % 16) '0' = Nat.digitChar (c.toNat % 16) :=
    hexDigits_getD (by omega)
  rw [high_nibble, low_nibble, hexCode, hhigh, hlow]

lemma set_blanks (xs : List Char) (m : Nat) (a b : Char) :
    ((xs ++ List.replicate (m + 2) ' ').set xs.length a).set (xs.length + 1) b =
      xs ++ [a, b] ++ List.replicate m ' ' := by
  have hone : xs.length + 1 - xs.length = 1 := by omega
  rw [List.set_append_right _ _ le_rfl, Nat.sub_self, List.replicate_succ, List.set_cons_zero,
    List.set_append_right _ _ (by omega), hone, List.replicate_succ]
  simp

/-- After `k` bytes the scratch line shows these and blanks. -/
lemma scratch_fold (bytes : List UInt8) (hlength : bytes.length ≤ 16)
    (hbytes : ∀ j < bytes.length, iBuffer.getD (i + j) 0 = bytes.getD j 0) (k : Nat)
    (hk : k ≤ bytes.length) :
    (List.range k).foldl (fun line j => dumpByte iBuffer i j line)
      ⟨List.replicate (step * 2) ' ', []⟩ =
        ⟨(bytes.take k).flatMap hexCode ++ List.replicate (32 - 2 * k) ' ',
          (bytes.take k).map asciiChar⟩ := by
  induction k with
  | zero => rfl
  | succ k ih =>
    have hindex : k < bytes.length := by omega
    have htaken : ((bytes.take k).flatMap hexCode).length = k * 2 := by
      rw [length_hexCodes, List.length_take_of_le (by omega), Nat.mul_comm]
    have hblanks : 32 - 2 * k = 32 - 2 * (k + 1) + 2 := by omega
    have hset := set_blanks ((bytes.take k).flatMap hexCode) (32 - 2 * (k + 1))
    rw [htaken, ← hblanks] at hset
    have hnext : bytes.getD k 0 = bytes[k] := List.getD_eq_getElem _ _ hindex
    rw [List.range_succ, List.foldl_append, ih (by omega), List.foldl_cons, List.foldl_nil]
    simp only [dumpByte, hbytes k hindex, hnext, hset, hexCharacters_nibble]
    rw [List.take_succ_eq_append_getElem hindex, List.flatMap_append, List.flatMap_singleton,
      List.map_append, List.map_singleton]
    rfl

lemma length_lineBytes (iBuffer : List UInt8) (k : Nat) :
    (lineBytes iBuffer k).length = min 16 (iBuffer.length - 16 * k) := by
  rw [lineBytes, List.length_take, List.length_drop]

lemma scratchLine_eq (iBuffer : List UInt8) (k : Nat) :
    scratchLine iBuffer iBuffer.length (16 * k) =
      ⟨(lineBytes iBuffer k).flatMap hexCode ++
          List.replicate (32 - 2 * (lineBytes iBuffer k).length) ' ',
        (lineBytes iBuffer k).map asciiChar⟩ := by
  have hlength := length_lineBytes iBuffer k
  have hbytes : ∀ j < (lineBytes iBuffer k).length,
      iBuffer.getD (16 * k + j) 0 = (lineBytes iBuffer k).getD j 0 := by
    intro j hj
    rw [List.getD_eq_getElem _ _ hj, List.getD_eq_getElem _ _ (by omega)]
    simp [lineBytes]
  have hfold := scratch_fold (lineBytes iBuffer k) (by omega) hbytes _ le_rfl
  rw [List.take_length] at hfold
  rw [scratchLine, takeWhile_range, step, ← hlength, ← hfold]
  rfl

end Scratch

/-- The bytes that a line shows, read from its groups. -/
def readDumpLine (line : List Char) : List UInt8 :=
  readHex ((((line.dropWhile (fun c => c ≠ ':')).drop 3).take 40).filter (fun c => !isBlank c))

/-- The bytes that a dump shows: those of its lines after the header. -/
def readDump (text : List Char) : List UInt8 := ((readLines text).drop 1).flatMap readDumpLine

section Lines

variable {k : Nat} {bytes : List UInt8} {line : List Char} {groups : List (List Char)}

lemma length_groups (h : ∀ group ∈ groups, group.length = 4) :
    (groups.flatMap (fun group => group ++ [' '])).length = 5 * groups.length := by
  induction groups with
  | nil => rfl
  | cons group groups ih =>
    rw [List.flatMap_cons, List.length_append, ih (fun g hg => h g (List.mem_cons_of_mem _ hg)),
      List.length_append, h group List.mem_cons_self, List.length_singleton, List.length_cons]
    ring

lemma filter_groups (groups : List (List Char)) :
    (groups.flatMap (fun group => group ++ [' '])).filter (fun c => !isBlank c) =
      groups.flatten.filter (fun c => !isBlank c) := by
  induction groups with
  | nil => rfl
  | cons group groups ih =>
    rw [List.flatMap_cons, List.flatten_cons, List.filter_append, List.filter_append, ih,
      List.filter_append]
    simp [isBlank]

lemma ne_of_mem_hexDigits {c : Char} (h : c ∈ hexDigits) : c ≠ ':' ∧ c ≠ '\n' ∧ isBlank c = false := by
  have hall : hexDigits.all (fun c => c ≠ ':' ∧ c ≠ '\n' ∧ isBlank c = false) = true := by decide
  exact of_decide_eq_true (List.all_eq_true.mp hall c h)

/-- The characters before the groups: those of the offset are hexadecimal digits. -/
lemma mem_offset {c : Char}
    (h : c ∈ ['\t', '0', 'x'] ++ List.leftpad 4 '0' (Nat.toDigits 16 (16 * k))) :
    c ≠ ':' ∧ c ≠ '\n' := by
  have hfront : ['\t', '0', 'x'].all (fun c => c ≠ ':' ∧ c ≠ '\n') = true := by decide
  have hzero : '0' ≠ ':' ∧ '0' ≠ '\n' := by decide
  rcases List.mem_append.mp h with h | h
  · exact of_decide_eq_true (List.all_eq_true.mp hfront c h)
  · rcases List.mem_append.mp h with h | h
    · rw [List.eq_of_mem_replicate h]
      exact hzero
    · have hne := ne_of_mem_hexDigits (mem_hexDigits_of_mem_toDigits h)
      exact ⟨hne.1, hne.2.1⟩

lemma asciiChar_ne (b : UInt8) : asciiChar b ≠ '\n' := by
  intro h
  unfold asciiChar at h
  split_ifs at h with hprint
  · have hvalid : b.toNat.isValidChar := Or.inl (lt_trans b.toNat_lt (by norm_num))
    have hnat : (Char.ofNat b.toNat).toNat = b.toNat := by
      rw [Char.ofNat, dif_pos hvalid]
      rfl
    rw [h] at hnat
    unfold isprint charValue at hprint
    rw [← hnat] at hprint
    revert hprint
    decide
  · revert h
    decide

/-- A character of the groups is a blank or belongs to a code. -/
lemma mem_groups {c : Char} (hcodes : groups.flatten.filter (fun c => !isBlank c) =
    bytes.flatMap hexCode) (h : c ∈ groups.flatMap (fun group => group ++ [' '])) : c ≠ '\n' := by
  by_cases hblank : isBlank c
  · rw [of_decide_eq_true hblank]
    decide
  · have hmem : c ∈ (groups.flatMap (fun group => group ++ [' '])).filter (fun c => !isBlank c) := by
      apply List.mem_filter.mpr
      simp [h, hblank]
    rw [filter_groups, hcodes] at hmem
    obtain ⟨b, -, hcode⟩ := List.mem_flatMap.mp hmem
    exact (ne_of_mem_hexDigits (mem_hexDigits_of_mem_hexCode hcode)).2.1

lemma DumpedLine.not_mem (h : DumpedLine k bytes line) : '\n' ∉ line := by
  obtain ⟨groups, -, -, hcodes, rfl⟩ := h
  have hcolon : '\n' ∉ [':', ' ', ' '] := by decide
  have hblank : '\n' ∉ [' '] := by decide
  intro hmem
  rcases List.mem_append.mp hmem with hmem | hmem
  · rcases List.mem_append.mp hmem with hmem | hmem
    · rcases List.mem_append.mp hmem with hmem | hmem
      · rcases List.mem_append.mp hmem with hmem | hmem
        · exact (mem_offset hmem).2 rfl
        · exact hcolon hmem
      · exact mem_groups hcodes hmem rfl
    · exact hblank hmem
  · obtain ⟨b, -, hchar⟩ := List.mem_map.mp hmem
    exact asciiChar_ne b hchar

lemma DumpedLine.read (h : DumpedLine k bytes line) : readDumpLine line = bytes := by
  obtain ⟨groups, hcount, hlengths, hcodes, rfl⟩ := h
  have hlength := length_groups hlengths
  have hstart : ∀ c ∈ ['\t', '0', 'x'] ++ List.leftpad 4 '0' (Nat.toDigits 16 (16 * k)),
      decide (c ≠ ':') = true := by
    intro c hc
    exact decide_eq_true (mem_offset hc).1
  rw [hcount] at hlength
  have htaken : (groups.flatMap (fun group => group ++ [' ']) ++
      ([' '] ++ bytes.map asciiChar)).take 40 = groups.flatMap (fun group => group ++ [' ']) :=
    List.take_left' hlength
  unfold readDumpLine
  rw [List.append_assoc, List.append_assoc, List.append_assoc, List.dropWhile_append_of_pos hstart]
  have hdropped : (([':', ' ', ' '] ++ (groups.flatMap (fun group => group ++ [' ']) ++
      ([' '] ++ bytes.map asciiChar))).dropWhile (fun c => c ≠ ':')).drop 3 =
      groups.flatMap (fun group => group ++ [' ']) ++ ([' '] ++ bytes.map asciiChar) := rfl
  rw [hdropped, htaken, filter_groups, hcodes, readHex_hexCodes]

end Lines

section Dump

variable {iBuffer : List UInt8} {k : Nat}

lemma groups_eq : List.range' 0 8 4 = (List.range 8).map (fun j => 4 * j) := rfl

lemma flatten_groups {hexValues : List Char} (h : hexValues.length = 32) :
    ((List.range' 0 8 4).map (fun j => (hexValues.drop j).take 4)).flatten = hexValues := by
  rw [groups_eq, List.map_map, ← List.flatMap_def]
  have hpieces := flatMap_pieces hexValues 4 8
  rw [List.take_of_length_le (by omega)] at hpieces
  exact hpieces

lemma filter_codes (bytes : List UInt8) (n : Nat) :
    (bytes.flatMap hexCode ++ List.replicate n ' ').filter (fun c => !isBlank c) =
      bytes.flatMap hexCode := by
  have hcodes : (bytes.flatMap hexCode).filter (fun c => !isBlank c) = bytes.flatMap hexCode := by
    apply List.filter_eq_self.mpr
    intro c hc
    obtain ⟨b, -, hcode⟩ := List.mem_flatMap.mp hc
    rw [(ne_of_mem_hexDigits (mem_hexDigits_of_mem_hexCode hcode)).2.2]
    rfl
  have hblanks : (List.replicate n ' ').filter (fun c => !isBlank c) = [] :=
    List.filter_replicate_of_neg (by decide)
  rw [List.filter_append, hcodes, hblanks, List.append_nil]

lemma dumpedLine_lineText (iBuffer : List UInt8) (k : Nat) :
    DumpedLine k (lineBytes iBuffer k) (lineText iBuffer iBuffer.length (16 * k)) := by
  have hlength := length_lineBytes iBuffer k
  have hcodes := length_hexCodes (lineBytes iBuffer k)
  unfold lineText
  rw [scratchLine_eq]
  generalize hvalues : (lineBytes iBuffer k).flatMap hexCode ++
    List.replicate (32 - 2 * (lineBytes iBuffer k).length) ' ' = hexValues
  have hcount : hexValues.length = 32 := by
    rw [← hvalues, List.length_append, hcodes, List.length_replicate]
    omega
  refine ⟨(List.range' 0 8 4).map (fun j => (hexValues.drop j).take 4), rfl, ?_, ?_, ?_⟩
  · intro group hgroup
    obtain ⟨j, hj, rfl⟩ := List.mem_map.mp hgroup
    rw [groups_eq] at hj
    obtain ⟨i, hi, rfl⟩ := List.mem_map.mp hj
    have hlt := List.mem_range.mp hi
    rw [List.length_take, List.length_drop, hcount]
    omega
  · rw [flatten_groups hcount, ← hvalues, filter_codes]
  · rw [List.flatMap_map]
    rfl

lemma headerText_not_mem (n : Nat) : '\n' ∉ headerText n := by
  have hbefore : '\n' ∉ "HexDump [Length=".toList := by decide
  have hafter : '\n' ∉ "]:".toList := by decide
  intro hmem
  rcases List.mem_append.mp hmem with hmem | hmem
  · rcases List.mem_append.mp hmem with hmem | hmem
    · exact hbefore hmem
    · have hdigit := Nat.isDigit_of_mem_toDigits (by norm_num) (by norm_num) hmem
      revert hdigit
      decide
  · exact hafter hmem

/-- The lines after the header. -/
def dumpedLines (iBuffer : List UInt8) : List (List Char) :=
  (lineOffsets iBuffer.length 0).map (lineText iBuffer iBuffer.length)

lemma dumpedLines_eq (iBuffer : List UInt8) : dumpedLines iBuffer =
    (List.range ((iBuffer.length + 15) / 16)).map
      (fun k => lineText iBuffer iBuffer.length (16 * k)) := by
  unfold dumpedLines lineOffsets
  rw [List.map_map]
  apply List.map_congr_left
  intro k _
  simp

lemma not_mem_dumpedLines : ∀ line ∈ headerText iBuffer.length :: dumpedLines iBuffer,
    '\n' ∉ line := by
  intro line hline
  rcases List.mem_cons.mp hline with rfl | hline
  · exact headerText_not_mem _
  · rw [dumpedLines_eq] at hline
    obtain ⟨k, -, rfl⟩ := List.mem_map.mp hline
    exact (dumpedLine_lineText iBuffer k).not_mem

lemma readDump_dumpedLines (iBuffer : List UInt8) :
    readDump (joinLines (headerText iBuffer.length :: dumpedLines iBuffer)) = iBuffer := by
  have hread : (fun k => readDumpLine (lineText iBuffer iBuffer.length (16 * k))) =
      lineBytes iBuffer := by
    funext k
    exact (dumpedLine_lineText iBuffer k).read
  have hpieces := flatMap_pieces iBuffer 16 ((iBuffer.length + 15) / 16)
  rw [List.take_of_length_le (by omega)] at hpieces
  unfold readDump
  rw [readLines_joinLines not_mem_dumpedLines, List.drop_one, List.tail_cons, dumpedLines_eq,
    List.flatMap_map, hread]
  exact hpieces

/-- What a dump prints into a stream in the default state: the header, a line for each sixteen
bytes, and the buffer can be read back from it. -/
theorem hexDump_text (iBuffer : List UInt8) (os : Stream) (h : os.format = Format.default) :
    ∃ lines : List (List Char),
      (hexDump iBuffer os).text = os.text ++ joinLines (headerText iBuffer.length :: lines) ∧
      (∀ line ∈ headerText iBuffer.length :: lines, '\n' ∉ line) ∧
      lines.length = (iBuffer.length + 15) / 16 ∧
      (∀ k, (hk : k < lines.length) → DumpedLine k (lineBytes iBuffer k) lines[k]) ∧
      readDump ((hexDump iBuffer os).text.drop os.text.length) = iBuffer := by
  have htext : (hexDump iBuffer os).text =
      os.text ++ joinLines (headerText iBuffer.length :: dumpedLines iBuffer) := text_hexDump h
  refine ⟨dumpedLines iBuffer, htext, not_mem_dumpedLines, ?_, ?_, ?_⟩
  · rw [dumpedLines_eq, List.length_map, List.length_range]
  · intro k hk
    have hline : (dumpedLines iBuffer)[k] = lineText iBuffer iBuffer.length (16 * k) := by
      simp [dumpedLines_eq]
    rw [hline]
    exact dumpedLine_lineText iBuffer k
  · rw [htext, List.drop_left]
    exact readDump_dumpedLines iBuffer

theorem hexDump_text_letter :
    (⟨Format.default, []⟩ : Stream).format = Format.default ∧ ∃ lines : List (List Char),
      (hexDump [0x41, 0xff] ⟨Format.default, []⟩).text = [] ++ joinLines (headerText 2 :: lines) ∧
      (∀ line ∈ headerText 2 :: lines, '\n' ∉ line) ∧ lines.length = 1 ∧
      (∀ k, (hk : k < lines.length) → DumpedLine k (lineBytes [0x41, 0xff] k) lines[k]) ∧
      readDump ((hexDump [0x41, 0xff] ⟨Format.default, []⟩).text.drop 0) = [0x41, 0xff] :=
  ⟨rfl, hexDump_text [0x41, 0xff] ⟨Format.default, []⟩ rfl⟩

example : (hexDump [0x41, 0xff] ⟨Format.default, []⟩).text =
    ("HexDump [Length=2]:\n" ++
      "\t0x0000:  41ff                                     A.\n").toList := by
  rw [text_hexDump rfl]
  decide +kernel

end Dump

end CppBenchmark
