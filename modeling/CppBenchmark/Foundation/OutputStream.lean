import Mathlib.Tactic

/-!
# Formatted output

A stream carries formatting state besides its text. Each formatted insertion pads what it
prints with the fill character up to the width, which it then sets back to zero; flags and
fill character stay until they are set again.
-/

namespace OutputStream

inductive Base
  | dec
  | hex
  | oct
  deriving DecidableEq

inductive Adjust
  | right
  | left
  | internal
  deriving DecidableEq

/-- The flags that integer and string insertions read, and the others. -/
structure Flags where
  base : Base
  adjust : Adjust
  showbase : Bool
  uppercase : Bool
  others : Nat
  deriving DecidableEq

structure Format where
  flags : Flags
  fill : Char
  width : Nat
  precision : Nat
  deriving DecidableEq

/-- The formatting state of a stream nobody has changed. -/
def Format.default : Format := ⟨⟨.dec, .right, false, false, 0⟩, ' ', 0, 6⟩

structure Stream where
  format : Format
  text : List Char

/-- Pads a text whose prefix, a sign or `0x`, internal padding keeps in front. -/
def padded (format : Format) (front body : List Char) : List Char :=
  let pads := List.replicate (format.width - (front ++ body).length) format.fill
  match format.flags.adjust with
  | .right => pads ++ front ++ body
  | .left => front ++ body ++ pads
  | .internal => front ++ pads ++ body

/-- The digits, and the base of an octal number, which is padded like one of them. -/
def digits (flags : Flags) (n : Nat) : List Char :=
  let text := match flags.base with
    | .dec => Nat.toDigits 10 n
    | .hex => Nat.toDigits 16 n
    | .oct => if flags.showbase ∧ n ≠ 0 then '0' :: Nat.toDigits 8 n else Nat.toDigits 8 n
  if flags.uppercase then text.map Char.toUpper else text

def basePrefix (flags : Flags) (n : Nat) : List Char :=
  if flags.showbase ∧ n ≠ 0 then
    match flags.base with
    | .dec => []
    | .hex => if flags.uppercase then ['0', 'X'] else ['0', 'x']
    | .oct => []
  else []

namespace Stream

/-- Appends a text formatted for the stream's state and sets the width back. -/
def emit (render : Format → List Char) (os : Stream) : Stream where
  format := { os.format with width := 0 }
  text := os.text ++ render os.format

def insertString (s : List Char) : Stream → Stream := emit (fun format => padded format [] s)

def insertUnsigned (n : Nat) : Stream → Stream :=
  emit (fun format => padded format (basePrefix format.flags n) (digits format.flags n))

/-- `std::endl`: the character is put unformatted. -/
def endl (os : Stream) : Stream := { os with text := os.text ++ ['\n'] }

def setfill (c : Char) (os : Stream) : Stream := { os with format := { os.format with fill := c } }

def setw (n : Nat) (os : Stream) : Stream := { os with format := { os.format with width := n } }

def hex (os : Stream) : Stream :=
  { os with format := { os.format with flags := { os.format.flags with base := .hex } } }

def setFlags (flags : Flags) (os : Stream) : Stream :=
  { os with format := { os.format with flags := flags } }

section Lemmas

variable (os : Stream)

@[simp] lemma format_emit (render : Format → List Char) :
    (os.emit render).format = { os.format with width := 0 } := rfl

@[simp] lemma text_emit (render : Format → List Char) :
    (os.emit render).text = os.text ++ render os.format := rfl

@[simp] lemma format_insertString (s : List Char) :
    (os.insertString s).format = { os.format with width := 0 } := rfl

@[simp] lemma format_insertUnsigned (n : Nat) :
    (os.insertUnsigned n).format = { os.format with width := 0 } := rfl

@[simp] lemma text_insertUnsigned (n : Nat) : (os.insertUnsigned n).text =
    os.text ++ padded os.format (basePrefix os.format.flags n) (digits os.format.flags n) := rfl

@[simp] lemma format_endl : os.endl.format = os.format := rfl

@[simp] lemma text_endl : os.endl.text = os.text ++ ['\n'] := rfl

@[simp] lemma format_setfill (c : Char) :
    (os.setfill c).format = { os.format with fill := c } := rfl

@[simp] lemma text_setfill (c : Char) : (os.setfill c).text = os.text := rfl

@[simp] lemma format_setw (n : Nat) : (os.setw n).format = { os.format with width := n } := rfl

@[simp] lemma text_setw (n : Nat) : (os.setw n).text = os.text := rfl

@[simp] lemma format_hex :
    os.hex.format = { os.format with flags := { os.format.flags with base := .hex } } := rfl

@[simp] lemma text_hex : os.hex.text = os.text := rfl

@[simp] lemma format_setFlags (flags : Flags) :
    (os.setFlags flags).format = { os.format with flags := flags } := rfl

@[simp] lemma text_setFlags (flags : Flags) : (os.setFlags flags).text = os.text := rfl

end Lemmas

/-- Without a width nothing is padded. -/
lemma padded_of_width {format : Format} (h : format.width = 0) (front body : List Char) :
    padded format front body = front ++ body := by
  unfold padded
  rw [h]
  cases format.flags.adjust <;> simp

/-- A hexadecimal number without a base, adjusted to the right. -/
lemma padded_hex {format : Format} (hbase : format.flags.base = .hex)
    (hadjust : format.flags.adjust = .right) (hshowbase : format.flags.showbase = false)
    (huppercase : format.flags.uppercase = false) (n : Nat) :
    padded format (basePrefix format.flags n) (digits format.flags n) =
      List.leftpad format.width format.fill (Nat.toDigits 16 n) := by
  simp [padded, basePrefix, digits, hbase, hadjust, hshowbase, huppercase, List.leftpad]

/-- The fill character shows only in a text that is shorter than the width. -/
lemma padded_fill_iff (format : Format) (c d : Char) (front body : List Char) :
    padded { format with fill := c } front body = padded { format with fill := d } front body ↔
      c = d ∨ format.width ≤ (front ++ body).length := by
  have hpads : List.replicate (format.width - (front ++ body).length) c =
      List.replicate (format.width - (front ++ body).length) d ↔
        c = d ∨ format.width ≤ (front ++ body).length := by
    rw [List.replicate_right_inj', Nat.sub_eq_zero_iff_le, or_comm]
  unfold padded
  cases format.flags.adjust with
  | right =>
    simp only [List.append_assoc, List.append_cancel_right_eq]
    exact hpads
  | left =>
    simp only [List.append_cancel_left_eq]
    exact hpads
  | internal =>
    simp only [List.append_cancel_right_eq, List.append_cancel_left_eq]
    exact hpads

lemma text_insertString {os : Stream} (h : os.format.width = 0) (s : List Char) :
    (os.insertString s).text = os.text ++ s := by
  rw [insertString, text_emit, padded_of_width h, List.nil_append]

end Stream

end OutputStream
