import CppBenchmark.Network.HexDump

/-!
# What a hex dump leaves behind

A program prints to the stream that `HexDump` dumps to. A dump restores the flags, but not the
fill character, so the padding of what is printed after it changes.
-/

namespace CppBenchmark

open OutputStream Stream

/-- A formatted insertion, plain or with `std::setw`. Its text depends on the flags and on the
precision before it is padded. -/
structure Insertion where
  setw : Option Nat
  front : Flags → Nat → List Char
  body : Flags → Nat → List Char

namespace Insertion

variable (x : Insertion)

def text (format : Format) : List Char :=
  padded format (x.front format.flags format.precision) (x.body format.flags format.precision)

def insert (os : Stream) : Stream :=
  match x.setw with
  | none => os.emit x.text
  | some w => (os.setw w).emit x.text

/-- The width is larger than the text. -/
def Pads (format : Format) : Prop := (x.front format.flags format.precision ++
  x.body format.flags format.precision).length < x.setw.getD 0

end Insertion

/-- What the program does with the stream. -/
inductive StreamUse
  | insert (x : Insertion)
  | hexDump (iBuffer : List UInt8)

namespace StreamUse

/-- The text of each of the program's own insertions. -/
def callerText : List StreamUse → Stream → List (List Char)
  | [], _ => []
  | insert x :: uses, os =>
    (x.insert os).text.drop os.text.length :: callerText uses (x.insert os)
  | hexDump iBuffer :: uses, os => callerText uses (CppBenchmark.hexDump iBuffer os)

def insertions : List StreamUse → List Insertion
  | [] => []
  | insert x :: uses => x :: insertions uses
  | hexDump _ :: uses => insertions uses

def withoutDumps (uses : List StreamUse) : List StreamUse := (insertions uses).map insert

/-- The insertions after the first dump of a buffer that is not empty. -/
def insertionsAfterDump : List StreamUse → List Insertion
  | [] => []
  | insert _ :: uses => insertionsAfterDump uses
  | hexDump iBuffer :: uses =>
    if iBuffer = [] then insertionsAfterDump uses else insertions uses

end StreamUse

section Insertion

variable {x : Insertion} {os : Stream}

/-- An insertion sets the width back, and leaves the rest of the state alone. -/
lemma format_insert (h : os.format.width = 0) : (x.insert os).format = os.format := by
  unfold Insertion.insert
  cases x.setw with
  | none => simp [← h]
  | some w => simp [← h]

lemma text_insert (h : os.format.width = 0) : (x.insert os).text =
    os.text ++ x.text { os.format with width := x.setw.getD 0 } := by
  unfold Insertion.insert
  cases x.setw with
  | none => simp [← h]
  | some w => simp

lemma text_fill_iff (format : Format) (c : Char) :
    x.text { format with fill := c, width := x.setw.getD 0 } =
        x.text { format with width := x.setw.getD 0 } ↔
      format.fill = c ∨ ¬x.Pads format := by
  have hfill := padded_fill_iff { format with width := x.setw.getD 0 } c format.fill
    (x.front format.flags format.precision) (x.body format.flags format.precision)
  rw [eq_comm (b := c), Insertion.Pads, not_lt]
  exact hfill

end Insertion

namespace StreamUse

variable {uses : List StreamUse} {os : Stream}

/-- Without dumps every insertion meets the formatting state of the start. -/
lemma callerText_withoutDumps (uses : List StreamUse) (h : os.format.width = 0) :
    callerText (withoutDumps uses) os = (insertions uses).map
      (fun x => x.text { os.format with width := x.setw.getD 0 }) := by
  unfold withoutDumps
  induction insertions uses generalizing os with
  | nil => rfl
  | cons x xs ih =>
    rw [List.map_cons, callerText, text_insert h, List.drop_left, List.map_cons,
      ih (by rw [format_insert h, h]), format_insert h]

/-- A dump finds the state that it leaves if it has no line to print, or the fill character of
the lines is set already. -/
theorem format_hexDump_iff (iBuffer : List UInt8) (h : os.format.width = 0) :
    (CppBenchmark.hexDump iBuffer os).format = os.format ↔ iBuffer = [] ∨ os.format.fill = '0' := by
  have hformat : ∀ format : Format, format.width = 0 → ∀ c,
      ({ format with fill := c, width := 0 } : Format) = format ↔ c = format.fill := by
    intro format hwidth c
    rw [← hwidth]
    constructor
    · intro heq
      exact congrArg Format.fill heq
    · rintro rfl
      rfl
  rw [format_hexDump, hformat os.format h]
  by_cases hempty : iBuffer = []
  · simp [hempty]
  · simp [hempty, eq_comm]

lemma format_hexDump_nil (h : os.format.width = 0) :
    (CppBenchmark.hexDump [] os).format = os.format := (format_hexDump_iff [] h).mpr (Or.inl rfl)

/-- With the fill character of the lines set already, no dump changes the state. -/
lemma callerText_of_fill (uses : List StreamUse) (h : os.format.width = 0)
    (hfill : os.format.fill = '0') : callerText uses os = (insertions uses).map
      (fun x => x.text { os.format with width := x.setw.getD 0 }) := by
  induction uses generalizing os with
  | nil => rfl
  | cons use uses ih =>
    cases use with
    | insert x =>
      have hformat := format_insert (x := x) h
      rw [callerText, insertions, List.map_cons, text_insert h, List.drop_left,
        ih (by rw [hformat, h]) (by rw [hformat, hfill]), hformat]
    | hexDump iBuffer =>
      have hformat := (format_hexDump_iff iBuffer h).mpr (Or.inr hfill)
      rw [callerText, insertions, ih (by rw [hformat, h]) (by rw [hformat, hfill]), hformat]

lemma callerText_iff (uses : List StreamUse) (h : os.format.width = 0) :
    callerText uses os = callerText (withoutDumps uses) os ↔
      os.format.fill = '0' ∨ ∀ x ∈ insertionsAfterDump uses, ¬x.Pads os.format := by
  induction uses generalizing os with
  | nil => simp [callerText, withoutDumps, insertions, insertionsAfterDump]
  | cons use uses ih =>
    cases use with
    | insert x =>
      have hformat := format_insert (x := x) h
      have hrest := @ih (x.insert os) (by rw [hformat, h])
      have hcaller : withoutDumps (insert x :: uses) = insert x :: withoutDumps uses := rfl
      rw [hcaller, callerText, callerText, List.cons_inj_right, hrest, hformat, insertionsAfterDump]
    | hexDump iBuffer =>
      have hcaller : withoutDumps (hexDump iBuffer :: uses) = withoutDumps uses := rfl
      rw [hcaller, callerText, insertionsAfterDump]
      by_cases hempty : iBuffer = []
      · have hformat := format_hexDump_nil h
        have hrest := @ih (CppBenchmark.hexDump [] os) (by rw [hformat, h])
        rw [callerText_withoutDumps uses (by rw [hformat, h]), hformat] at hrest
        rw [if_pos hempty, hempty, callerText_withoutDumps uses h]
        exact hrest
      · have hformat : (CppBenchmark.hexDump iBuffer os).format =
            { os.format with fill := '0', width := 0 } := by
          rw [format_hexDump, if_neg hempty]
        rw [if_neg hempty, callerText_of_fill uses (by rw [hformat]) (by rw [hformat]), hformat,
          callerText_withoutDumps uses h, List.map_inj_left]
        simp only [text_fill_iff]
        by_cases hfill : os.format.fill = '0'
        · simp [hfill]
        · simp [hfill]

/-- The program's own text is the same as without the dumps exactly if the fill character is
the one of the dumps, or no insertion after a dump is padded; and a single dump leaves the
state as it found it exactly if the buffer is empty or the fill character is its own. -/
theorem hexDump_undisturbed_iff (os : Stream) (h : os.format.width = 0) :
    (∀ uses : List StreamUse, callerText uses os = callerText (withoutDumps uses) os ↔
      os.format.fill = '0' ∨ ∀ x ∈ insertionsAfterDump uses, ¬x.Pads os.format) ∧
    ∀ iBuffer, (CppBenchmark.hexDump iBuffer os).format = os.format ↔
      iBuffer = [] ∨ os.format.fill = '0' :=
  ⟨fun uses => callerText_iff uses h, fun iBuffer => format_hexDump_iff iBuffer h⟩

theorem hexDump_undisturbed_default : Format.default.width = 0 ∧
    (∀ uses : List StreamUse,
      callerText uses ⟨Format.default, []⟩ = callerText (withoutDumps uses) ⟨Format.default, []⟩ ↔
        ' ' = '0' ∨ ∀ x ∈ insertionsAfterDump uses, ¬x.Pads Format.default) ∧
    ∀ iBuffer, (CppBenchmark.hexDump iBuffer ⟨Format.default, []⟩).format = Format.default ↔
      iBuffer = [] ∨ ' ' = '0' :=
  ⟨rfl, hexDump_undisturbed_iff ⟨Format.default, []⟩ rfl⟩

/-- A number printed with `std::setw(4)` after a dump is padded with zeros. -/
theorem padded_with_zeros :
    callerText [hexDump [0x41], insert ⟨some 4, fun _ _ => [], fun _ _ => ['7']⟩]
        ⟨Format.default, []⟩ ≠
      callerText (withoutDumps [hexDump [0x41], insert ⟨some 4, fun _ _ => [], fun _ _ => ['7']⟩])
        ⟨Format.default, []⟩ := by
  have hformat : (CppBenchmark.hexDump [0x41] ⟨Format.default, []⟩).format =
      { Format.default with fill := '0' } := format_hexDump [0x41] ⟨Format.default, []⟩
  have hzeros : callerText [hexDump [0x41], insert ⟨some 4, fun _ _ => [], fun _ _ => ['7']⟩]
      ⟨Format.default, []⟩ = [['0', '0', '0', '7']] := by
    rw [callerText, callerText, text_insert (by rw [hformat]; rfl), List.drop_left, hformat]
    decide
  rw [hzeros, callerText_withoutDumps _ rfl]
  decide

end StreamUse

end CppBenchmark
