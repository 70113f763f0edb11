import CppBenchmark.Foundation.DelimitedText
import CppBenchmark.Foundation.Insertions

/-!
# Records in a stream

A record is streamed as literals and values in turns. If the text of every value can be told
from what follows it, and the literals keep the values apart, then the text of any records
streamed one after the other determines the text of every value of every record.
-/

namespace OutputStream

open DelimitedText

namespace Stream

variable {α : Type*}

/-- A value of a record and the literal in front of it. -/
structure StreamField (α : Type*) where
  label : List Char
  insert : α → Stream → Stream

def streamRecord (close : List Char) (fields : List (StreamField α)) (a : α) (os : Stream) : Stream :=
  insertString close (fields.foldl (fun os field => field.insert a (insertString field.label os)) os)

/-- In a plain stream a value prints a text that can be told from what follows it. -/
structure Readable (insert : α → Stream → Stream) : Prop where
  prints : ∀ a, Prints (insert a) (fun base => textAt base (insert a))
  delimiting : ∀ base, SelfDelimiting isWord (fun a => textAt base (insert a))

/-- The literals of a record end words. -/
structure Separated (close : List Char) (fields : List (StreamField α)) : Prop where
  close_ne : close ≠ []
  close_delimited : Delimited isWord close
  label_ne : ∀ field ∈ fields, field.label ≠ []
  label_delimited : ∀ field ∈ fields.tail, Delimited isWord field.label

def StreamField.textField (base : Base) (field : StreamField α) : TextField α where
  label := field.label
  write a := textAt base (field.insert a)

section Records

variable {close : List Char} {fields : List (StreamField α)} {base : Base}

lemma readable_of_render {insert : α → Stream → Stream} {render : α → Base → List Char}
    (hprints : ∀ a, Prints (insert a) (render a))
    (hdelimiting : ∀ base, SelfDelimiting isWord (fun a => render a base)) : Readable insert where
  prints a := by
    have h : (fun base => textAt base (insert a)) = render a := by
      funext base
      exact (hprints a).textAt_eq base
    rw [h]
    exact hprints a
  delimiting base := by
    have h : (fun a => textAt base (insert a)) = fun a => render a base := by
      funext a
      exact (hprints a).textAt_eq base
    rw [h]
    exact hdelimiting base

lemma Readable.comp {β : Type*} {insert : α → Stream → Stream} (h : Readable insert) (f : β → α) :
    Readable (fun b => insert (f b)) where
  prints b := h.prints (f b)
  delimiting base := (h.delimiting base).comp f

lemma prints_streamRecord (h : ∀ field ∈ fields, Readable field.insert) (a : α) :
    Prints (streamRecord close fields a)
      (fun base => writeRecord close (fields.map (StreamField.textField base)) a) := by
  have hfields : ∀ field ∈ fields, Prints
      (fun os => field.insert a (insertString field.label os))
      (fun base => field.label ++ textAt base (field.insert a)) := by
    intro field hfield
    exact (prints_insertString field.label).comp ((h field hfield).prints a)
  have hrecord := (prints_foldl hfields).comp (prints_insertString close)
  simp only [writeRecord_eq_flatMap, List.flatMap_map]
  exact hrecord

lemma Separated.labelled (hsep : Separated close fields)
    (h : ∀ field ∈ fields, Readable field.insert) (base : Base) :
    Labelled isWord close (fields.map (StreamField.textField base)) where
  close_ne := hsep.close_ne
  close_delimited := hsep.close_delimited
  label_ne := List.forall_mem_map.mpr hsep.label_ne
  label_delimited := by
    rw [← List.map_tail]
    exact List.forall_mem_map.mpr hsep.label_delimited
  write_delimiting := List.forall_mem_map.mpr (fun field hfield => (h field hfield).delimiting base)

/-- A record of readable values is readable. -/
lemma readable_streamRecord (hsep : Separated close fields)
    (h : ∀ field ∈ fields, Readable field.insert) : Readable (streamRecord close fields) :=
  readable_of_render (prints_streamRecord h) (fun base => (hsep.labelled h base).selfDelimiting)

lemma textAt_streamRecord_eq_iff (hsep : Separated close fields)
    (h : ∀ field ∈ fields, Readable field.insert) (a b : α) :
    textAt base (streamRecord close fields a) = textAt base (streamRecord close fields b) ↔
      ∀ field ∈ fields, textAt base (field.insert a) = textAt base (field.insert b) := by
  rw [(prints_streamRecord h a).textAt_eq, (prints_streamRecord h b).textAt_eq,
    writeRecord_inj_iff (hsep.labelled h base), List.forall_mem_map]
  rfl

def streamRecords (close : List Char) (fields : List (StreamField α)) (as : List α) (os : Stream) :
    Stream :=
  as.foldl (fun os a => streamRecord close fields a os) os

/-- The text of records streamed one after the other shows how many there are and the text
of every value of each. -/
theorem text_streamRecords_eq_iff (hsep : Separated close fields)
    (h : ∀ field ∈ fields, Readable field.insert) {os : Stream} (hos : os.format.Plain)
    (as bs : List α) :
    (streamRecords close fields as os).text = (streamRecords close fields bs os).text ↔
      List.Forall₂ (fun a b => ∀ field ∈ fields, textAt os.format.flags.base (field.insert a) =
        textAt os.format.flags.base (field.insert b)) as bs := by
  have htext : ∀ as, (streamRecords close fields as os).text = os.text ++ as.flatMap
      (writeRecord close (fields.map (StreamField.textField os.format.flags.base))) :=
    fun as => (prints_foldl (s := as) (fun a _ => prints_streamRecord h a)).text os hos
  rw [htext, htext, List.append_cancel_left_eq, writeRecords_inj_iff (hsep.labelled h _)]
  simp only [List.forall_mem_map]
  rfl

end Records

end Stream

end OutputStream
