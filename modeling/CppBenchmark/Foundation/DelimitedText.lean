import Mathlib.Data.List.Basic
import Mathlib.Tactic

/-!
# Texts that show where they end

A writer is self-delimiting when its text can be told from what follows it, provided that
this does not go on with a character of a word. Labels between the fields of a record keep
words apart, so a text of records determines the text of every field of every record.
-/

namespace DelimitedText

variable {α β : Type*} {word : Char → Bool}

/-- A text that does not begin with a character of a word. -/
def Delimited (word : Char → Bool) (rest : List Char) : Prop :=
  ∀ c, rest.head? = some c → word c = false

lemma delimited_cons {c : Char} (h : word c = false) (rest : List Char) :
    Delimited word (c :: rest) := by
  intro c' hc'
  rw [← Option.some.inj hc', h]

lemma delimited_append {label : List Char} (h : Delimited word label) (hne : label ≠ [])
    (rest : List Char) : Delimited word (label ++ rest) := by
  obtain ⟨c, label, rfl⟩ := List.exists_cons_of_ne_nil hne
  exact delimited_cons (h c rfl) _

def SelfDelimiting (word : Char → Bool) (write : α → List Char) : Prop :=
  ∀ a b r s, Delimited word r → Delimited word s → write a ++ r = write b ++ s →
    write a = write b ∧ r = s

lemma selfDelimiting_of_length {write : α → List Char}
    (h : ∀ a b, (write a).length = (write b).length) : SelfDelimiting word write :=
  fun a b _ _ _ _ heq => List.append_inj heq (h a b)

/-- Pieces of the same lengths joined without anything between them. -/
lemma flatMap_inj_iff {ι : Type*} {f g : ι → List β} {is : List ι}
    (hlength : ∀ i, (f i).length = (g i).length) :
    is.flatMap f = is.flatMap g ↔ ∀ i ∈ is, f i = g i := by
  induction is with
  | nil => simp
  | cons i is ih =>
    rw [List.flatMap_cons, List.flatMap_cons, List.forall_mem_cons, ← ih]
    constructor
    · exact fun h => List.append_inj h (hlength i)
    · rintro ⟨hi, his⟩
      rw [hi, his]

lemma takeWhile_word {text rest : List Char} (htext : ∀ c ∈ text, word c = true)
    (hrest : Delimited word rest) : (text ++ rest).takeWhile word = text := by
  rw [List.takeWhile_append_of_pos htext]
  cases rest with
  | nil => rw [List.takeWhile_nil, List.append_nil]
  | cons c rest =>
    rw [List.takeWhile_cons_of_neg (by rw [hrest c rfl]; exact Bool.false_ne_true), List.append_nil]

/-- Words end where the characters of words end. -/
lemma selfDelimiting_of_word {write : α → List Char} (h : ∀ a, ∀ c ∈ write a, word c = true) :
    SelfDelimiting word write := by
  intro a b r s hr hs heq
  have hab : write a = write b := by
    rw [← takeWhile_word (h a) hr, heq, takeWhile_word (h b) hs]
  rw [hab] at heq
  exact ⟨hab, List.append_cancel_left heq⟩

lemma SelfDelimiting.comp {write : α → List Char} (h : SelfDelimiting word write) (f : β → α) :
    SelfDelimiting word (fun b => write (f b)) :=
  fun a b r s hr hs heq => h (f a) (f b) r s hr hs heq

/-- A field of a record: the text in front of it, and how it is written. -/
structure TextField (α : Type*) where
  label : List Char
  write : α → List Char

/-- A record: its fields one after the other, and a text behind the last. -/
def writeRecord (close : List Char) : List (TextField α) → α → List Char
  | [], _ => close
  | field :: fields, a => field.label ++ (field.write a ++ writeRecord close fields a)

lemma writeRecord_eq_flatMap (close : List Char) (fields : List (TextField α)) (a : α) :
    writeRecord close fields a = fields.flatMap (fun field => field.label ++ field.write a) ++ close := by
  induction fields with
  | nil => rfl
  | cons field fields ih =>
    rw [writeRecord, ih, List.flatMap_cons, List.append_assoc, List.append_assoc]

/-- Every field but the first stands behind a label that ends a word. -/
structure Labelled (word : Char → Bool) (close : List Char) (fields : List (TextField α)) : Prop where
  close_ne : close ≠ []
  close_delimited : Delimited word close
  label_ne : ∀ field ∈ fields, field.label ≠ []
  label_delimited : ∀ field ∈ fields.tail, Delimited word field.label
  write_delimiting : ∀ field ∈ fields, SelfDelimiting word field.write

section Records

variable {close : List Char} {fields : List (TextField α)}

/-- What follows a field of a record ends a word. -/
lemma delimited_writeRecord (hne : close ≠ []) (hclose : Delimited word close)
    (hlabel : ∀ field ∈ fields, field.label ≠ [] ∧ Delimited word field.label) (a : α)
    (rest : List Char) : Delimited word (writeRecord close fields a ++ rest) := by
  cases fields with
  | nil => exact delimited_append hclose hne rest
  | cons field fields =>
    obtain ⟨hfield, hdelimited⟩ := hlabel field List.mem_cons_self
    rw [writeRecord, List.append_assoc]
    exact delimited_append hdelimited hfield _

lemma writeRecord_append_inj (h : Labelled word close fields) {a b : α} {r s : List Char}
    (heq : writeRecord close fields a ++ r = writeRecord close fields b ++ s) :
    (∀ field ∈ fields, field.write a = field.write b) ∧ r = s := by
  induction fields with
  | nil => exact ⟨fun field hfield => absurd hfield List.not_mem_nil, List.append_cancel_left heq⟩
  | cons field fields ih =>
    have hrest : ∀ field ∈ fields, field.label ≠ [] ∧ Delimited word field.label :=
      fun field hfield => ⟨h.label_ne field (List.mem_cons_of_mem _ hfield), h.label_delimited field hfield⟩
    have htail : Labelled word close fields := {
      close_ne := h.close_ne
      close_delimited := h.close_delimited
      label_ne := fun field hfield => (hrest field hfield).1
      label_delimited := fun field hfield => (hrest field (List.mem_of_mem_tail hfield)).2
      write_delimiting := fun field hfield => h.write_delimiting field (List.mem_cons_of_mem _ hfield) }
    rw [writeRecord, writeRecord, List.append_assoc, List.append_assoc, List.append_assoc,
      List.append_assoc] at heq
    obtain ⟨hfield, heq⟩ := h.write_delimiting field List.mem_cons_self a b _ _
      (delimited_writeRecord h.close_ne h.close_delimited hrest a r)
      (delimited_writeRecord h.close_ne h.close_delimited hrest b s) (List.append_cancel_left heq)
    obtain ⟨hfields, hrs⟩ := ih htail heq
    exact ⟨List.forall_mem_cons.mpr ⟨hfield, hfields⟩, hrs⟩

lemma writeRecord_congr {a b : α} (h : ∀ field ∈ fields, field.write a = field.write b) :
    writeRecord close fields a = writeRecord close fields b := by
  induction fields with
  | nil => rfl
  | cons field fields ih =>
    rw [List.forall_mem_cons] at h
    rw [writeRecord, writeRecord, h.1, ih h.2]

lemma writeRecord_inj_iff (h : Labelled word close fields) {a b : α} :
    writeRecord close fields a = writeRecord close fields b ↔
      ∀ field ∈ fields, field.write a = field.write b := by
  refine ⟨fun heq => ?_, writeRecord_congr⟩
  rw [← List.append_nil (writeRecord close fields a),
    ← List.append_nil (writeRecord close fields b)] at heq
  exact (writeRecord_append_inj h heq).1

lemma Labelled.selfDelimiting (h : Labelled word close fields) :
    SelfDelimiting word (writeRecord close fields) := by
  intro a b r s _ _ heq
  obtain ⟨hfields, hrs⟩ := writeRecord_append_inj h heq
  exact ⟨writeRecord_congr hfields, hrs⟩

lemma writeRecord_ne_nil (h : Labelled word close fields) (a : α) :
    writeRecord close fields a ≠ [] := by
  cases fields with
  | nil => exact h.close_ne
  | cons field fields =>
    rw [writeRecord]
    exact List.append_ne_nil_of_left_ne_nil (h.label_ne field List.mem_cons_self) _

/-- A text of records shows how many there are, and every field of each. -/
theorem writeRecords_inj_iff (h : Labelled word close fields) (as bs : List α) :
    as.flatMap (writeRecord close fields) = bs.flatMap (writeRecord close fields) ↔
      List.Forall₂ (fun a b => ∀ field ∈ fields, field.write a = field.write b) as bs := by
  constructor
  · intro heq
    induction as generalizing bs with
    | nil =>
      cases bs with
      | nil => exact .nil
      | cons b bs =>
        rw [List.flatMap_nil, List.flatMap_cons] at heq
        exact absurd (List.append_eq_nil_iff.mp heq.symm).1 (writeRecord_ne_nil h b)
    | cons a as ih =>
      cases bs with
      | nil =>
        rw [List.flatMap_nil, List.flatMap_cons] at heq
        exact absurd (List.append_eq_nil_iff.mp heq).1 (writeRecord_ne_nil h a)
      | cons b bs =>
        rw [List.flatMap_cons, List.flatMap_cons] at heq
        obtain ⟨hab, heq⟩ := writeRecord_append_inj h heq
        exact .cons hab (ih bs heq)
  · intro hall
    induction hall with
    | nil => rfl
    | cons hab _ ih => rw [List.flatMap_cons, List.flatMap_cons, writeRecord_congr hab, ih]

end Records

end DelimitedText
