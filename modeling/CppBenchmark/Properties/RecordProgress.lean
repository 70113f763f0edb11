import CppBenchmark.Properties.ArrayVariableSize

/-!
# Progress over records whose length counts the header

Neither the iterator nor the loop looks at the length field before using it. A step makes
progress exactly when the field covers the header, and the loop makes progress until it
ends exactly on a concatenation of complete records.
-/

namespace CppBenchmark

open ByteMemory

/-- `operator++` advances by at least the header, and the payload length of `operator*` is
the length field minus the header. -/
structure MakesProgress (T : HeaderType) (m : Memory) (buffer : Nat) : Prop where
  advances : buffer + T.sizeofT ≤ increment T true m buffer
  payload : (dereference T true m buffer).length + T.sizeofT =
    T.getLength (m.read buffer T.sizeofT)

/-- The loop over the region ends, and every step of it makes progress. -/
def LoopProgresses (T : HeaderType) (m : Memory) (base n : Nat) : Prop :=
  ∃ fuel entries, ArrayVariableSizeProperty.loop T true m fuel ⟨base, n⟩ = some entries ∧
    ∀ e ∈ entries, MakesProgress T m e.header

variable {T : HeaderType} {m : Memory} {buffer last base n : Nat}

lemma makesProgress_iff : MakesProgress T m buffer ↔
    T.sizeofT ≤ T.getLength (m.read buffer T.sizeofT) ∧
      buffer + T.getLength (m.read buffer T.sizeofT) < 2 ^ 64 := by
  have hfield := T.getLength_lt (m.read buffer T.sizeofT)
  have hsize := T.sizeofT_lt
  have hpos := T.sizeofT_pos
  have hnext : increment T true m buffer =
      (buffer + T.getLength (m.read buffer T.sizeofT)) % 2 ^ 64 := rfl
  have hlength : (dereference T true m buffer).length =
      (2 ^ 64 + T.getLength (m.read buffer T.sizeofT) - T.sizeofT) % 2 ^ 64 := rfl
  constructor
  · rintro ⟨hadvances, hpayload⟩
    rw [hnext] at hadvances
    rw [hlength] at hpayload
    omega
  · rintro ⟨hcovers, hlt⟩
    constructor
    · rw [hnext]
      omega
    · rw [hlength]
      omega

lemma increment_of_progress (h : MakesProgress T m buffer) :
    increment T true m buffer = buffer + T.getLength (m.read buffer T.sizeofT) :=
  Nat.mod_eq_of_lt (makesProgress_iff.mp h).2

/-- Steps that make progress never pass the end at which the loop stops. -/
lemma rangeFor_inside (fuel : Nat) : ∀ (buffer : Nat) (entries : List Entry),
    rangeFor T true m last fuel buffer = some entries →
    (∀ e ∈ entries, MakesProgress T m e.header) →
    buffer ≤ last ∧ ∀ e ∈ entries, e.header + T.sizeofT ≤ last ∧ e.payload + e.length ≤ last := by
  induction fuel with
  | zero =>
    intro buffer entries h
    cases h
  | succ fuel ih =>
    intro buffer entries h hprogress
    rw [rangeFor] at h
    split_ifs at h with hne
    · obtain ⟨rest, hrest, rfl⟩ := Option.map_eq_some_iff.mp h
      have hstep : MakesProgress T m buffer := hprogress _ List.mem_cons_self
      obtain ⟨hnext, htail⟩ :=
        ih _ rest hrest (fun e he => hprogress e (List.mem_cons_of_mem _ he))
      have hadvances := hstep.advances
      have hlt := (makesProgress_iff.mp hstep).2
      have hincr := increment_of_progress hstep
      have hpayload : ptrAdd buffer T.sizeofT = buffer + T.sizeofT := Nat.mod_eq_of_lt (by omega)
      refine ⟨by omega, ?_⟩
      intro e he
      rcases List.mem_cons.mp he with rfl | he
      · have hlength := hstep.payload
        have haddress : (dereference T true m buffer).payload = ptrAdd buffer T.sizeofT := rfl
        rw [haddress, hpayload]
        exact ⟨by change buffer + T.sizeofT ≤ last; omega, by omega⟩
      · exact htail e he
    · cases h
      rw [ne_eq, not_not] at hne
      exact ⟨hne.le, fun e he => absurd he List.not_mem_nil⟩

/-- At every record of a concatenation the cursor makes progress. -/
lemma entriesAt_progress (records : List WireRecord) : ∀ buffer,
    (∀ r ∈ records, r.WellFormed T true) →
    m.read buffer (records.flatMap WireRecord.bytes).length = records.flatMap WireRecord.bytes →
    buffer + (records.flatMap WireRecord.bytes).length < 2 ^ 64 →
    ∀ e ∈ entriesAt buffer records, MakesProgress T m e.header := by
  induction records with
  | nil => simp [entriesAt]
  | cons r records ih =>
    intro buffer hwf hread hlt e he
    have hfield := (hwf r List.mem_cons_self).length_field
    obtain ⟨hhead, hbytes, hrest⟩ := (hwf r List.mem_cons_self).read_cons hread
    rw [List.flatMap_cons, List.length_append] at hlt
    rcases List.mem_cons.mp he with rfl | he
    · simp only [if_true] at hfield
      change MakesProgress T m buffer
      rw [makesProgress_iff, hhead, hfield]
      omega
    · exact ih _ (fun r' hr' => hwf r' (List.mem_cons_of_mem r hr')) hrest (by omega) e he

/-- The loop ends and makes progress exactly on a concatenation of complete records. -/
lemma loopProgresses_of_records (hlt : base + n < 2 ^ 64) : LoopProgresses T m base n ↔
    ∃ records : List WireRecord, (∀ r ∈ records, r.WellFormed T true) ∧
      records.flatMap WireRecord.bytes = m.read base n := by
  constructor
  · rintro ⟨fuel, entries, hloop, hprogress⟩
    have hend : ArrayVariableSizeProperty.endPtr ⟨base, n⟩ = base + n := Nat.mod_eq_of_lt hlt
    have hinside := hloop
    unfold ArrayVariableSizeProperty.loop at hinside
    rw [hend] at hinside
    obtain ⟨records, hwf, hbytes, -⟩ :=
      records_of_loop hlt hloop (rangeFor_inside fuel base entries hinside hprogress).2
    exact ⟨records, hwf, hbytes⟩
  · rintro ⟨records, hwf, hbytes⟩
    have hn : (records.flatMap WireRecord.bytes).length = n := by rw [hbytes, Memory.read_length]
    exact ⟨_, _, loop_of_records hlt hwf hbytes,
      entriesAt_progress records base hwf (by rw [hn, hbytes]) (by rwa [hn])⟩

/-- A cursor that does not move never reaches the end. -/
lemma rangeFor_stuck (hstuck : increment T true m buffer = buffer) (hne : buffer ≠ last)
    (fuel : Nat) : rangeFor T true m last fuel buffer = none := by
  induction fuel with
  | zero => rfl
  | succ fuel ih => rw [rangeFor, if_pos hne, hstuck, ih, Option.map_none]

/-- Progress at a cursor, and of the whole loop, for every header type and every memory. -/
theorem progress_iff (T : HeaderType) (m : Memory) :
    (∀ buffer, MakesProgress T m buffer ↔ T.sizeofT ≤ T.getLength (m.read buffer T.sizeofT) ∧
      buffer + T.getLength (m.read buffer T.sizeofT) < 2 ^ 64) ∧
      ∀ base n, base + n < 2 ^ 64 → (LoopProgresses T m base n ↔
        ∃ records : List WireRecord, (∀ r ∈ records, r.WellFormed T true) ∧
          records.flatMap WireRecord.bytes = m.read base n) :=
  ⟨fun _ => makesProgress_iff, fun _ _ => loopProgresses_of_records⟩

/-- The loop over two records, the second without a payload. -/
theorem progress_iff_counted : LoopProgresses countedHeader countedMemory 4096 10 :=
  ((progress_iff countedHeader countedMemory).2 4096 10 (by decide)).mpr
    ⟨countedRecords, countedRecords_wellFormed, by decide +kernel⟩

/-- A record whose length field is zero: the cursor stays, the payload length wraps around
and the loop never ends. -/
theorem zero_length_never_ends :
    let T : HeaderType := ⟨4, fun bytes => ofBytesLE bytes % 2 ^ 64, by decide, by decide,
      fun _ => Nat.mod_lt _ (by decide)⟩
    increment T true (fun _ => 0) 4096 = 4096 ∧
      (dereference T true (fun _ => 0) 4096).length = 2 ^ 64 - 4 ∧
      ¬∃ fuel entries,
        ArrayVariableSizeProperty.loop T true (fun _ => 0) fuel ⟨4096, 8⟩ = some entries := by
  refine ⟨by decide, by decide, ?_⟩
  rintro ⟨fuel, entries, hloop⟩
  unfold ArrayVariableSizeProperty.loop at hloop
  rw [rangeFor_stuck (by decide) (by decide)] at hloop
  cases hloop

end CppBenchmark
