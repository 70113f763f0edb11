import CppBenchmark.Foundation.DelimitedText
import CppBenchmark.Foundation.OutputStream

/-!
# Insertions into a plain stream

In a plain stream only the base of numbers and the fill character may have been set. What
such an insertion prints depends on the base alone, and it leaves the formatting state.
-/

namespace OutputStream

open DelimitedText

structure Format.Plain (format : Format) : Prop where
  width : format.width = 0
  showbase : format.flags.showbase = false
  uppercase : format.flags.uppercase = false

def Base.radix : Base → Nat
  | .dec => 10
  | .hex => 16
  | .oct => 8

namespace Stream

/-- A character, an `unsigned char` or a `signed char`. -/
def insertChar (c : Char) : Stream → Stream := emit (fun format => padded format [] [c])

/-- A `bool` in a stream without `boolalpha`. -/
def insertBool (b : Bool) : Stream → Stream := insertUnsigned b.toNat

/-- A signed integer of `bits` bits: in bases other than ten the bits are printed. -/
def insertSigned (bits : Nat) (v : Int) (os : Stream) : Stream :=
  match os.format.flags.base with
  | .dec => os.emit (fun format =>
      padded format (if v < 0 then ['-'] else []) (Nat.toDigits 10 v.natAbs))
  | _ => os.insertUnsigned (v % 2 ^ bits).toNat

/-- What an insertion prints in a plain stream, by the base. -/
structure Prints (insert : Stream → Stream) (render : Base → List Char) : Prop where
  text : ∀ os, os.format.Plain → (insert os).text = os.text ++ render os.format.flags.base
  format : ∀ os, os.format.Plain → (insert os).format = os.format

section Prints

variable {insert insert' : Stream → Stream} {render render' : Base → List Char} {os : Stream}

lemma Prints.comp (h : Prints insert render) (h' : Prints insert' render') :
    Prints (fun os => insert' (insert os)) (fun base => render base ++ render' base) where
  text os hos := by
    have hplain : (insert os).format.Plain := by rwa [h.format os hos]
    rw [h'.text _ hplain, h.text os hos, h.format os hos, List.append_assoc]
  format os hos := by
    have hplain : (insert os).format.Plain := by rwa [h.format os hos]
    rw [h'.format _ hplain, h.format os hos]

lemma prints_id : Prints id (fun _ => []) where
  text os _ := (List.append_nil os.text).symm
  format _ _ := rfl

/-- A loop of insertions. -/
lemma prints_foldl {ι : Type*} {insert : ι → Stream → Stream} {render : ι → Base → List Char}
    {s : List ι} (h : ∀ i ∈ s, Prints (insert i) (render i)) :
    Prints (fun os => s.foldl (fun os i => insert i os) os)
      (fun base => s.flatMap (fun i => render i base)) := by
  induction s with
  | nil => exact prints_id
  | cons i s ih =>
    rw [List.forall_mem_cons] at h
    exact h.1.comp (ih h.2)

lemma emit_format_of_plain (h : os.format.Plain) (render : Format → List Char) :
    (os.emit render).format = os.format := by
  rw [format_emit, ← h.width]

lemma prints_insertString (s : List Char) : Prints (insertString s) (fun _ => s) where
  text _ h := text_insertString h.width s
  format _ h := emit_format_of_plain h _

lemma prints_insertChar (c : Char) : Prints (insertChar c) (fun _ => [c]) where
  text os h := by rw [insertChar, text_emit, padded_of_width h.width, List.nil_append]
  format _ h := emit_format_of_plain h _

lemma prints_insertUnsigned (n : Nat) :
    Prints (insertUnsigned n) (fun base => Nat.toDigits base.radix n) where
  text os h := by
    have hdigits : digits os.format.flags n = Nat.toDigits os.format.flags.base.radix n := by
      unfold digits
      rw [h.uppercase, if_neg Bool.false_ne_true]
      cases os.format.flags.base with
      | dec => rfl
      | hex => rfl
      | oct => exact if_neg (fun hand => Bool.false_ne_true (h.showbase.symm.trans hand.1))
    have hprefix : basePrefix os.format.flags n = [] := by
      unfold basePrefix
      rw [h.showbase, if_neg (fun hand => Bool.false_ne_true hand.1)]
    rw [text_insertUnsigned, padded_of_width h.width, hprefix, hdigits, List.nil_append]
  format _ h := emit_format_of_plain h _

/-- A signed number, with a minus sign in base ten only. -/
def signedText (bits : Nat) (v : Int) : Base → List Char
  | .dec => (if v < 0 then ['-'] else []) ++ Nat.toDigits 10 v.natAbs
  | base => Nat.toDigits base.radix (v % 2 ^ bits).toNat

lemma prints_insertSigned (bits : Nat) (v : Int) : Prints (insertSigned bits v) (signedText bits v) where
  text os h := by
    have hunsigned := (prints_insertUnsigned (v % 2 ^ bits).toNat).text os h
    unfold insertSigned signedText
    cases hbase : os.format.flags.base with
    | dec => rw [text_emit, padded_of_width h.width]
    | hex => rw [hunsigned, hbase]
    | oct => rw [hunsigned, hbase]
  format os h := by
    unfold insertSigned
    cases os.format.flags.base with
    | dec => exact emit_format_of_plain h _
    | hex => exact emit_format_of_plain h _
    | oct => exact emit_format_of_plain h _

end Prints

/-- A stream in which only the base has been set. -/
def plainFormat (base : Base) : Format := { Format.default with flags.base := base }

/-- The text of an insertion into an empty stream with the given base. -/
def textAt (base : Base) (insert : Stream → Stream) : List Char := (insert ⟨plainFormat base, []⟩).text

lemma Prints.textAt_eq {insert : Stream → Stream} {render : Base → List Char}
    (h : Prints insert render) (base : Base) : textAt base insert = render base :=
  (h.text ⟨plainFormat base, []⟩ ⟨rfl, rfl, rfl⟩).trans (List.nil_append _)

section Numbers

variable {base : Base} {c : Char}

/-- The characters of printed numbers. -/
def isWord (c : Char) : Bool := c.isAlphanum || c == '-'

lemma one_lt_radix (base : Base) : 1 < base.radix := by
  cases base <;> decide

lemma radix_le (base : Base) : base.radix ≤ 16 := by
  cases base <;> decide

lemma digitChar_inj : ∀ d < 16, ∀ e < 16, Nat.digitChar d = Nat.digitChar e → d = e := by
  decide

lemma isWord_digitChar {d : Nat} (hd : d < 16) : isWord (Nat.digitChar d) = true := by
  revert d
  decide

lemma isWord_toDigits {n : Nat} (h : c ∈ Nat.toDigits base.radix n) : isWord c = true := by
  have hradix := radix_le base
  have hone := one_lt_radix base
  induction n using Nat.strongRecOn with
  | ind n ih =>
    rw [Nat.toDigits_eq_if hone] at h
    split_ifs at h with hn
    · rw [List.mem_singleton.mp h]
      exact isWord_digitChar (by omega)
    · rcases List.mem_append.mp h with h | h
      · exact ih (n / base.radix) (Nat.div_lt_self (by omega) hone) h
      · rw [List.mem_singleton.mp h]
        exact isWord_digitChar ((Nat.mod_lt n (by omega)).trans_le hradix)

/-- Different numbers are printed differently. -/
lemma toDigits_inj {n m : Nat} (h : Nat.toDigits base.radix n = Nat.toDigits base.radix m) :
    n = m := by
  have hradix := radix_le base
  have hone := one_lt_radix base
  have hlow : ∀ k, k % base.radix < 16 := fun k => (Nat.mod_lt k (by omega)).trans_le hradix
  induction n using Nat.strongRecOn generalizing m with
  | ind n ih =>
    have hlength : (Nat.toDigits base.radix n).length = (Nat.toDigits base.radix m).length := by rw [h]
    by_cases hn : n < base.radix
    · have hm : m < base.radix := by
        by_contra hm
        rw [Nat.toDigits_of_lt_base hn, Nat.toDigits_of_base_le hone (not_lt.mp hm),
          List.length_append, List.length_singleton, List.length_singleton] at hlength
        have hpos := @Nat.length_toDigits_pos base.radix (m / base.radix)
        omega
      rw [Nat.toDigits_of_lt_base hn, Nat.toDigits_of_lt_base hm] at h
      exact digitChar_inj n (by omega) m (by omega) (List.singleton_inj.mp h)
    · have hm : base.radix ≤ m := by
        by_contra hm
        rw [Nat.toDigits_of_lt_base (not_le.mp hm), Nat.toDigits_of_base_le hone (not_lt.mp hn),
          List.length_append, List.length_singleton, List.length_singleton] at hlength
        have hpos := @Nat.length_toDigits_pos base.radix (n / base.radix)
        omega
      rw [Nat.toDigits_of_base_le hone (not_lt.mp hn), Nat.toDigits_of_base_le hone hm] at h
      obtain ⟨hhigh, hdigit⟩ := List.append_inj' h rfl
      have hdiv := ih (n / base.radix) (Nat.div_lt_self (by omega) hone) hhigh
      have hmod := digitChar_inj _ (hlow n) _ (hlow m) (List.singleton_inj.mp hdigit)
      rw [← Nat.div_add_mod n base.radix, hdiv, hmod, Nat.div_add_mod]

lemma isWord_signedText {bits : Nat} {v : Int} (h : c ∈ signedText bits v base) : isWord c = true := by
  cases base with
  | dec =>
    rcases List.mem_append.mp h with h | h
    · split_ifs at h
      · rw [List.mem_singleton.mp h]
        decide
      · exact absurd h List.not_mem_nil
    · exact @isWord_toDigits .dec c v.natAbs h
  | hex => exact @isWord_toDigits .hex c _ h
  | oct => exact @isWord_toDigits .oct c _ h

lemma minus_not_mem_toDigits (n : Nat) : '-' ∉ Nat.toDigits 10 n := by
  intro h
  exact absurd (Nat.isDigit_of_mem_toDigits (by decide) (by decide) h) (by decide)

lemma sign_digits_inj {v w : Int}
    (h : (if v < 0 then ['-'] else []) ++ Nat.toDigits 10 v.natAbs =
      (if w < 0 then ['-'] else []) ++ Nat.toDigits 10 w.natAbs) : v = w := by
  have hdigits : ∀ n m : Nat, Nat.toDigits 10 n = Nat.toDigits 10 m → n = m :=
    fun n m => @toDigits_inj .dec n m
  have hminus : ∀ n m : Nat, ['-'] ++ Nat.toDigits 10 n ≠ [] ++ Nat.toDigits 10 m := by
    intro n m heq
    apply minus_not_mem_toDigits m
    rw [← List.nil_append (Nat.toDigits 10 m), ← heq]
    exact List.mem_cons_self
  by_cases hv : v < 0
  · by_cases hw : w < 0
    · rw [if_pos hv, if_pos hw] at h
      have habs := hdigits _ _ (List.append_cancel_left h)
      omega
    · rw [if_pos hv, if_neg hw] at h
      exact absurd h (hminus _ _)
  · by_cases hw : w < 0
    · rw [if_neg hv, if_pos hw] at h
      exact absurd h.symm (hminus _ _)
    · rw [if_neg hv, if_neg hw] at h
      have habs := hdigits _ _ (List.append_cancel_left h)
      omega

/-- Numbers of `bits` bits that agree modulo `2 ^ bits` are equal. -/
lemma eq_of_emod_eq {bits : Nat} {v w : Int} (hbits : 0 < bits)
    (hv : -2 ^ (bits - 1) ≤ v ∧ v < 2 ^ (bits - 1)) (hw : -2 ^ (bits - 1) ≤ w ∧ w < 2 ^ (bits - 1))
    (h : v % 2 ^ bits = w % 2 ^ bits) : v = w := by
  have hpow : (2 : Int) ^ bits = 2 * 2 ^ (bits - 1) := by
    rw [← pow_succ', Nat.sub_add_cancel hbits]
  have hdvd : (2 : Int) ^ bits ∣ v - w := Int.ModEq.dvd h.symm
  have hzero : v - w = 0 := by
    apply Int.eq_zero_of_abs_lt_dvd hdvd
    rw [hpow, abs_lt]
    constructor <;> linarith
  linarith

/-- Different signed numbers of one width are printed differently. -/
lemma signedText_inj {bits : Nat} {v w : Int} (hbits : 0 < bits)
    (hv : -2 ^ (bits - 1) ≤ v ∧ v < 2 ^ (bits - 1)) (hw : -2 ^ (bits - 1) ≤ w ∧ w < 2 ^ (bits - 1))
    (h : signedText bits v base = signedText bits w base) : v = w := by
  have hunsigned : ∀ base : Base, Nat.toDigits base.radix (v % 2 ^ bits).toNat =
      Nat.toDigits base.radix (w % 2 ^ bits).toNat → v = w := by
    intro base h
    have hnat := toDigits_inj h
    have hpos : (0 : Int) < 2 ^ bits := by positivity
    have hvmod := Int.emod_nonneg v hpos.ne'
    have hwmod := Int.emod_nonneg w hpos.ne'
    exact eq_of_emod_eq hbits hv hw (by omega)
  cases base with
  | dec => exact sign_digits_inj h
  | hex => exact hunsigned .hex h
  | oct => exact hunsigned .oct h

end Numbers

end Stream

end OutputStream
