import CppBenchmark.Messages.Dispatcher

/-!
# The entries a dispatcher uses

The table has an entry for each value of the unsigned version of the underlying type, and
an id is widened to `std::size_t` to index it. A negative id is widened by its sign, far
past the table.
-/

namespace CppBenchmark

open ByteMemory

variable {traits : MarketTraits}

inductive DispatcherCall (traits : MarketTraits)
  | registerMessage (registration : Registration traits)
  | tryProcess (messageId : MessageTypeT traits.underlying) (buffer bufferSize : Nat)

namespace DispatcherCall

def messageId : DispatcherCall traits → MessageTypeT traits.underlying
  | .registerMessage registration => registration.messageId
  | .tryProcess messageId _ _ => messageId

/-- The table index of a call. -/
def index (call : DispatcherCall traits) : Nat := call.messageId.toSize

/-- One call on a dispatcher; `none` is an index past the table. -/
def apply (s : MessageDispatcher traits × Execution traits) :
    DispatcherCall traits → Option (MessageDispatcher traits × Execution traits)
  | .registerMessage registration =>
    (s.1.registerMessage registration).map (fun dispatcher => (dispatcher, s.2))
  | .tryProcess messageId buffer bufferSize =>
    (s.1.tryProcess messageId buffer bufferSize s.2).map (fun result => (s.1, result.2))

def run (calls : List (DispatcherCall traits)) (s : MessageDispatcher traits × Execution traits) :
    Option (MessageDispatcher traits × Execution traits) :=
  calls.foldlM apply s

end DispatcherCall

/-- No call of a run indexes past the table, and different ids use different entries. -/
structure TableCovered (calls : List (DispatcherCall traits)) (execution : Execution traits) :
    Prop where
  runs : (DispatcherCall.run calls (MessageDispatcher.init, execution)).isSome
  inside : ∀ call ∈ calls, call.index < traits.underlying.tableSize
  apart : ∀ call ∈ calls, ∀ call' ∈ calls, call.messageId ≠ call'.messageId →
    call.index ≠ call'.index

section Indices

variable {U : UnderlyingType}

lemma UnderlyingType.InRange.bounds {v : Int} (h : U.InRange v) :
    -2 ^ 16 < v ∧ v < U.tableSize := by
  have hsize : (U.tableSize : Int) = 2 ^ U.bits := by
    rw [U.tableSize_eq]
    norm_num
  rw [hsize]
  unfold UnderlyingType.InRange at h
  rcases U.bits_eq with hbits | hbits
  all_goals
    rw [hbits] at h ⊢
    split_ifs at h <;> omega

lemma MessageTypeT.bounds (id : MessageTypeT U) : -2 ^ 16 < id.val ∧ id.val < U.tableSize :=
  UnderlyingType.InRange.bounds id.property

/-- The widening cast keeps different ids apart, whatever their sign. -/
lemma MessageTypeT.toSize_ne {id id' : MessageTypeT U} (hne : id ≠ id') :
    id.toSize ≠ id'.toSize := by
  intro heq
  apply hne
  apply Subtype.ext
  have hid := id.bounds
  have hid' := id'.bounds
  have hle := U.tableSize_le
  unfold MessageTypeT.toSize at heq
  omega

lemma MessageTypeT.toSize_lt_iff (id : MessageTypeT U) : id.toSize < U.tableSize ↔ 0 ≤ id.val := by
  have hid := id.bounds
  have hle := U.tableSize_le
  unfold MessageTypeT.toSize
  omega

/-- A type all of whose values index inside the table is unsigned. -/
lemma UnderlyingType.nonneg_iff : (∀ id : MessageTypeT U, 0 ≤ id.val) ↔ U.signed = false := by
  constructor
  · intro hall
    by_contra hsigned
    rw [Bool.not_eq_false] at hsigned
    have hrange : U.InRange (-1) := by
      unfold UnderlyingType.InRange
      rw [hsigned, if_pos rfl]
      rcases U.bits_eq with hbits | hbits <;> rw [hbits] <;> norm_num
    exact absurd (hall ⟨-1, hrange⟩) (by norm_num)
  · intro hunsigned id
    have hrange := id.property
    rw [UnderlyingType.InRange, hunsigned] at hrange
    exact hrange.1

end Indices

namespace DispatcherCall

lemma apply_isSome (s : MessageDispatcher traits × Execution traits) (call : DispatcherCall traits) :
    (apply s call).isSome ↔ call.index < traits.underlying.tableSize := by
  cases call with
  | registerMessage registration =>
    dsimp only [apply, index, messageId, MessageDispatcher.registerMessage]
    split_ifs with h <;> simp [h]
  | tryProcess messageId buffer bufferSize =>
    dsimp only [apply, index, DispatcherCall.messageId, MessageDispatcher.tryProcess]
    split_ifs with h <;> simp [h]

lemma run_isSome (calls : List (DispatcherCall traits))
    (s : MessageDispatcher traits × Execution traits) :
    (run calls s).isSome ↔ ∀ call ∈ calls, call.index < traits.underlying.tableSize := by
  induction calls generalizing s with
  | nil => simp [run]
  | cons call calls ih =>
    have happly := apply_isSome s call
    rw [run, List.foldlM_cons, List.forall_mem_cons, ← happly]
    cases h : apply s call with
    | none => simp
    | some s' => simpa [run] using ih s'

end DispatcherCall

/-- A run stays inside the table exactly when it uses no negative id, so every run does
exactly when the underlying type is unsigned. -/
theorem tableCovered_iff (traits : MarketTraits) :
    (∀ (calls : List (DispatcherCall traits)) (execution : Execution traits),
      TableCovered calls execution ↔ ∀ call ∈ calls, 0 ≤ call.messageId.val) ∧
      ((∀ (calls : List (DispatcherCall traits)) (execution : Execution traits),
        TableCovered calls execution) ↔ traits.underlying.signed = false) := by
  have hrun : ∀ (calls : List (DispatcherCall traits)) (execution : Execution traits),
      TableCovered calls execution ↔ ∀ call ∈ calls, 0 ≤ call.messageId.val := by
    intro calls execution
    constructor
    · intro h call hcall
      exact call.messageId.toSize_lt_iff.mp (h.inside call hcall)
    · intro hnonneg
      have hinside : ∀ call ∈ calls, call.index < traits.underlying.tableSize :=
        fun call hcall => call.messageId.toSize_lt_iff.mpr (hnonneg call hcall)
      exact ⟨(DispatcherCall.run_isSome calls _).mpr hinside, hinside,
        fun call _ call' _ hne => MessageTypeT.toSize_ne hne⟩
  refine ⟨hrun, ?_⟩
  rw [← UnderlyingType.nonneg_iff]
  constructor
  · intro hall id
    have hone := (hrun [.tryProcess id 0 0] ⟨fun _ => 0, []⟩).mp (hall _ _)
    exact hone _ List.mem_cons_self
  · intro hnonneg calls execution
    exact (hrun calls execution).mpr (fun call _ => hnonneg call.messageId)

/-- A market whose ids are signed bytes. -/
def signedMarket : MarketTraits where
  underlying := ⟨8, true, .inl rfl⟩
  Message := Empty
  sizeof := Empty.elim
  sizeofLayout := Empty.elim
  getExpectedMessageId message := message.elim
  process message := message.elim

/-- The id -1 of a signed byte indexes a table of 256 entries at 2 ^ 64 - 1. -/
theorem negative_id_past_table :
    ∃ id : MessageTypeT signedMarket.underlying, id.val = -1 ∧
      (DispatcherCall.tryProcess id 4096 0 : DispatcherCall signedMarket).index = 2 ^ 64 - 1 ∧
      ¬TableCovered [.tryProcess id 4096 0] ⟨fun _ => 0, []⟩ := by
  refine ⟨⟨-1, by decide⟩, rfl, by decide, ?_⟩
  intro hcovered
  exact absurd (hcovered.inside _ List.mem_cons_self) (by decide)

end CppBenchmark
