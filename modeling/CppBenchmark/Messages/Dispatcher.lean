import CppBenchmark.Foundation.ByteMemory
import CppBenchmark.Foundation.History

/-!
# Message dispatch

A `MessageDispatcher` holds one callback for each message id. `RegisterMessage` overwrites
the callback of an id by a chain of message types; the callback processes the buffer as
the first type of the chain whose size is that of the buffer.
-/

namespace CppBenchmark

open ByteMemory History

/-- The underlying type of a message id enum, of at most 16 bits. -/
structure UnderlyingType where
  bits : Nat
  signed : Bool
  bits_eq : bits = 8 ∨ bits = 16

namespace UnderlyingType

variable (U : UnderlyingType)

def InRange (v : Int) : Prop :=
  if U.signed then -2 ^ (U.bits - 1) ≤ v ∧ v < 2 ^ (U.bits - 1) else 0 ≤ v ∧ v < 2 ^ U.bits

instance (v : Int) : Decidable (U.InRange v) :=
  inferInstanceAs (Decidable (if U.signed then -2 ^ (U.bits - 1) ≤ v ∧ v < 2 ^ (U.bits - 1)
    else 0 ≤ v ∧ v < 2 ^ U.bits))

/-- `numeric_limits<make_unsigned_t<underlying_type_t<MessageTypeT>>>::max() + 1`. -/
def tableSize : Nat := 2 ^ U.bits - 1 + 1

end UnderlyingType

def MessageTypeT (U : UnderlyingType) : Type := {v : Int // U.InRange v}

instance (U : UnderlyingType) : DecidableEq (MessageTypeT U) :=
  inferInstanceAs (DecidableEq {v : Int // U.InRange v})

def MessageTypeT.toSize {U : UnderlyingType} (id : MessageTypeT U) : Nat := (id.val % 2 ^ 64).toNat

/-- The id enum of a market and its message types: their size and that of their layout,
the id they expect, and what `Process` does to the memory their object stands in. -/
structure MarketTraits where
  underlying : UnderlyingType
  Message : Type
  sizeof : Message → Nat
  sizeofLayout : Message → Nat
  getExpectedMessageId : Message → MessageTypeT underlying
  process : Message → Nat → Memory → Memory

variable (traits : MarketTraits)

/-- The memory and the `Process` calls made so far, with the object of each. -/
structure Execution where
  memory : Memory
  processed : List (traits.Message × Nat)

def Execution.process {traits : MarketTraits} (execution : Execution traits)
    (message : traits.Message) (buffer : Nat) : Execution traits where
  memory := traits.process message buffer execution.memory
  processed := execution.processed ++ [(message, buffer)]

def MessageHandler.tryProcess (buffer bufferSize : Nat) :
    List traits.Message → Execution traits → Bool × Execution traits
  | [], execution => (false, execution)
  | message :: messages, execution =>
    if traits.sizeof message = bufferSize then (true, execution.process message buffer)
    else MessageHandler.tryProcess buffer bufferSize messages execution

/-- A call of `RegisterMessage`, with what its assertions check. -/
structure Registration where
  messageId : MessageTypeT traits.underlying
  messages : List traits.Message
  expected : ∀ message ∈ messages, messageId = traits.getExpectedMessageId message
  layoutMatch : ∀ message ∈ messages, traits.sizeofLayout message = traits.sizeof message

/-- A callback is the chain of message types its handler was instantiated with. -/
structure MessageDispatcher where
  messageTable : Vector (List traits.Message) traits.underlying.tableSize

namespace MessageDispatcher

variable {traits}

def init : MessageDispatcher traits where
  messageTable := Vector.replicate traits.underlying.tableSize []

/-- `RegisterMessage`; `none` is an index past the table. -/
def registerMessage (dispatcher : MessageDispatcher traits) (registration : Registration traits) :
    Option (MessageDispatcher traits) :=
  if h : registration.messageId.toSize < traits.underlying.tableSize then
    some ⟨dispatcher.messageTable.set registration.messageId.toSize registration.messages h⟩
  else none

/-- `TryProcess`; `none` is an index past the table. -/
def tryProcess (dispatcher : MessageDispatcher traits) (messageId : MessageTypeT traits.underlying)
    (buffer bufferSize : Nat) (execution : Execution traits) : Option (Bool × Execution traits) :=
  if h : messageId.toSize < traits.underlying.tableSize then
    some (MessageHandler.tryProcess traits buffer bufferSize
      dispatcher.messageTable[messageId.toSize] execution)
  else none

def registerAll (history : List (Registration traits)) : Option (MessageDispatcher traits) :=
  history.foldlM registerMessage init

end MessageDispatcher

section Unsigned

variable {U : UnderlyingType}

lemma UnderlyingType.tableSize_eq (U : UnderlyingType) : U.tableSize = 2 ^ U.bits :=
  Nat.sub_add_cancel Nat.one_le_two_pow

lemma UnderlyingType.tableSize_le (U : UnderlyingType) : U.tableSize ≤ 2 ^ 16 := by
  rw [U.tableSize_eq]
  apply Nat.pow_le_pow_right (by norm_num)
  rcases U.bits_eq with h | h <;> omega

lemma MessageTypeT.toSize_eq (hunsigned : U.signed = false) (id : MessageTypeT U) :
    (id.toSize : Int) = id.val ∧ id.toSize < U.tableSize := by
  have hrange : 0 ≤ id.val ∧ id.val < 2 ^ U.bits := by
    have h := id.property
    rwa [UnderlyingType.InRange, hunsigned, if_neg (by decide)] at h
  have hsize : ((2 ^ U.bits : Nat) : Int) = U.tableSize := by rw [U.tableSize_eq]
  have hle := U.tableSize_le
  push_cast at hsize
  unfold MessageTypeT.toSize
  omega

lemma MessageTypeT.toSize_injective (hunsigned : U.signed = false) {id id' : MessageTypeT U}
    (h : id.toSize = id'.toSize) : id = id' := by
  apply Subtype.ext
  rw [← (id.toSize_eq hunsigned).1, ← (id'.toSize_eq hunsigned).1, h]

end Unsigned

section Handler

variable {traits} {buffer bufferSize : Nat}

def MessageHandler.firstOfSize (bufferSize : Nat) (messages : List traits.Message) :
    Option traits.Message :=
  messages.find? (fun message => traits.sizeof message = bufferSize)

lemma MessageHandler.tryProcess_eq (messages : List traits.Message) (execution : Execution traits) :
    MessageHandler.tryProcess traits buffer bufferSize messages execution =
      match MessageHandler.firstOfSize bufferSize messages with
      | some message => (true, execution.process message buffer)
      | none => (false, execution) := by
  unfold MessageHandler.firstOfSize
  induction messages with
  | nil => rfl
  | cons message messages ih =>
    by_cases h : traits.sizeof message = bufferSize
    · rw [MessageHandler.tryProcess, if_pos h, List.find?_cons_of_pos (by simpa using h)]
    · rw [MessageHandler.tryProcess, if_neg h, List.find?_cons_of_neg (by simpa using h), ih]

lemma MessageHandler.firstOfSize_isSome {messages : List traits.Message} :
    (MessageHandler.firstOfSize bufferSize messages).isSome ↔
      ∃ message ∈ messages, traits.sizeof message = bufferSize := by
  simp [MessageHandler.firstOfSize, List.find?_isSome]

end Handler

section Registrations

variable {traits} {dispatcher : MessageDispatcher traits} {history : List (Registration traits)}
  {bufferSize : Nat}

def latest (history : List (Registration traits)) (messageId : MessageTypeT traits.underlying) :
    Option (Registration traits) :=
  mostRecent Registration.messageId history messageId

/-- The table holds for each id the chain of its most recent registration. -/
def MessageDispatcher.Holds (dispatcher : MessageDispatcher traits)
    (history : List (Registration traits)) : Prop :=
  ∀ (messageId : MessageTypeT traits.underlying) (h : messageId.toSize < traits.underlying.tableSize),
    dispatcher.messageTable[messageId.toSize] = ((latest history messageId).map (·.messages)).getD []

lemma MessageDispatcher.init_holds : (init : MessageDispatcher traits).Holds [] := by
  intro messageId h
  simp [MessageDispatcher.init, latest]

/-- Registering an id overwrites its entry and no other. -/
lemma MessageDispatcher.Holds.registerMessage (hunsigned : traits.underlying.signed = false)
    (h : dispatcher.Holds history) (registration : Registration traits) :
    ∃ dispatcher', dispatcher.registerMessage registration = some dispatcher' ∧
      dispatcher'.Holds (history ++ [registration]) := by
  have hindex := (registration.messageId.toSize_eq hunsigned).2
  refine ⟨_, dif_pos hindex, ?_⟩
  intro messageId hlt
  rw [latest, mostRecent_concat]
  by_cases heq : registration.messageId = messageId
  · subst heq
    simp
  · have hne : registration.messageId.toSize ≠ messageId.toSize :=
      fun hsize => heq (MessageTypeT.toSize_injective hunsigned hsize)
    rw [if_neg heq]
    simp only [Vector.getElem_set_ne hindex hlt hne]
    exact h messageId hlt

lemma MessageDispatcher.registerAll_holds (hunsigned : traits.underlying.signed = false)
    (history : List (Registration traits)) :
    ∃ dispatcher, registerAll history = some dispatcher ∧ dispatcher.Holds history := by
  induction history using List.reverseRecOn with
  | nil => exact ⟨init, rfl, init_holds⟩
  | append_singleton history registration ih =>
    obtain ⟨dispatcher, hrun, hholds⟩ := ih
    obtain ⟨dispatcher', hstep, hholds'⟩ := hholds.registerMessage hunsigned registration
    refine ⟨dispatcher', ?_, hholds'⟩
    rw [registerAll, List.foldlM_append, ← registerAll, hrun]
    simpa using hstep

lemma MessageDispatcher.tryProcess_registerAll (hunsigned : traits.underlying.signed = false)
    (history : List (Registration traits)) (messageId : MessageTypeT traits.underlying)
    (buffer bufferSize : Nat) (execution : Execution traits) :
    (registerAll history).bind (tryProcess · messageId buffer bufferSize execution) =
      some (match (latest history messageId).bind
          (fun r => MessageHandler.firstOfSize bufferSize r.messages) with
        | some message => (true, execution.process message buffer)
        | none => (false, execution)) := by
  obtain ⟨dispatcher, hrun, hholds⟩ := registerAll_holds hunsigned history
  have hindex := (messageId.toSize_eq hunsigned).2
  rw [hrun, Option.bind_some, tryProcess, dif_pos hindex, hholds messageId hindex,
    MessageHandler.tryProcess_eq]
  cases latest history messageId <;> rfl

/-- A registration of an id with none of the same id after it. -/
def IsLatest (history : List (Registration traits)) (messageId : MessageTypeT traits.underlying)
    (registration : Registration traits) : Prop :=
  ∃ before after, history = before ++ registration :: after ∧
    registration.messageId = messageId ∧ ∀ r ∈ after, r.messageId ≠ messageId

/-- A message type of a chain that has the size of the buffer, with none of that size before it. -/
def IsFirstOfSize (bufferSize : Nat) (messages : List traits.Message) (message : traits.Message) :
    Prop :=
  ∃ before after, messages = before ++ message :: after ∧ traits.sizeof message = bufferSize ∧
    ∀ m ∈ before, traits.sizeof m ≠ bufferSize

lemma latest_eq_some_iff {messageId : MessageTypeT traits.underlying}
    {registration : Registration traits} :
    latest history messageId = some registration ↔ IsLatest history messageId registration :=
  mostRecent_eq_some_iff

lemma MessageHandler.firstOfSize_eq_some_iff {messages : List traits.Message}
    {message : traits.Message} :
    MessageHandler.firstOfSize bufferSize messages = some message ↔
      IsFirstOfSize bufferSize messages message := by
  unfold MessageHandler.firstOfSize IsFirstOfSize
  rw [List.find?_eq_some_iff_append]
  constructor
  · rintro ⟨hsize, before, after, rfl, hbefore⟩
    exact ⟨before, after, rfl, by simpa using hsize, fun m hm => by simpa using hbefore m hm⟩
  · rintro ⟨before, after, rfl, hsize, hbefore⟩
    exact ⟨by simpa using hsize, before, after, rfl, fun m hm => by simpa using hbefore m hm⟩

/-- A buffer is processed, once, as the first type of its size in the most recent
registration of its id, and left alone when there is none. -/
theorem tryProcess_dispatches (hunsigned : traits.underlying.signed = false)
    (history : List (Registration traits)) (messageId : MessageTypeT traits.underlying)
    (buffer bufferSize : Nat) (execution : Execution traits) :
    (∃ dispatcher result execution', MessageDispatcher.registerAll history = some dispatcher ∧
      dispatcher.tryProcess messageId buffer bufferSize execution = some (result, execution') ∧
      (result = true ↔ ∃ registration, IsLatest history messageId registration ∧
        ∃ message ∈ registration.messages, traits.sizeof message = bufferSize) ∧
      (result = true → ∃ registration message, IsLatest history messageId registration ∧
        IsFirstOfSize bufferSize registration.messages message ∧
        execution'.memory = traits.process message buffer execution.memory ∧
        execution'.processed = execution.processed ++ [(message, buffer)]) ∧
      (result = false → execution' = execution)) ∧
    ∀ history' : List (Registration traits),
      (∀ registration, IsLatest history' messageId registration ↔
        IsLatest history messageId registration) →
      (MessageDispatcher.registerAll history').bind
          (MessageDispatcher.tryProcess · messageId buffer bufferSize execution) =
        (MessageDispatcher.registerAll history).bind
          (MessageDispatcher.tryProcess · messageId buffer bufferSize execution) := by
  constructor
  · obtain ⟨dispatcher, hrun, hprocess⟩ := Option.bind_eq_some_iff.mp
      (MessageDispatcher.tryProcess_registerAll hunsigned history messageId buffer bufferSize execution)
    refine ⟨dispatcher, _, _, hrun, hprocess, ?_⟩
    cases hcandidate : (latest history messageId).bind
        (fun r => MessageHandler.firstOfSize bufferSize r.messages) with
    | none =>
      refine ⟨⟨fun h => absurd h Bool.false_ne_true, ?_⟩,
        fun h => absurd h Bool.false_ne_true, fun _ => rfl⟩
      rintro ⟨registration, hlatest, hsize⟩
      rw [latest_eq_some_iff.mpr hlatest, Option.bind_some] at hcandidate
      have hsome := MessageHandler.firstOfSize_isSome.mpr hsize
      rw [hcandidate] at hsome
      exact absurd hsome Bool.false_ne_true
    | some message =>
      obtain ⟨registration, hlatest, hfirst⟩ := Option.bind_eq_some_iff.mp hcandidate
      have hsize := MessageHandler.firstOfSize_isSome.mp (Option.isSome_of_eq_some hfirst)
      rw [latest_eq_some_iff] at hlatest
      rw [MessageHandler.firstOfSize_eq_some_iff] at hfirst
      exact ⟨⟨fun _ => ⟨registration, hlatest, hsize⟩, fun _ => rfl⟩,
        fun _ => ⟨registration, message, hlatest, hfirst, rfl, rfl⟩,
        fun h => absurd h.symm Bool.false_ne_true⟩
  · intro history' hlatest
    have heq : latest history' messageId = latest history messageId := by
      ext registration
      rw [latest_eq_some_iff, latest_eq_some_iff, hlatest]
    rw [MessageDispatcher.tryProcess_registerAll hunsigned,
      MessageDispatcher.tryProcess_registerAll hunsigned, heq]

inductive SampleMessage where
  | loginMessage
  | newOrderMessage
  | deprecatedNewOrderMessage

def sampleIdType : UnderlyingType := ⟨16, false, .inr rfl⟩

def sampleLogin : MessageTypeT sampleIdType := ⟨0x4F4C, by decide⟩

def sampleNewOrder : MessageTypeT sampleIdType := ⟨0x4F4E, by decide⟩

/-- The messages of the dispatcher test, and a `Process` of the deprecated order that clears
its last member, `Reserved`. -/
def sampleMarket : MarketTraits where
  underlying := sampleIdType
  Message := SampleMessage
  sizeof
    | .loginMessage => 8
    | .newOrderMessage => 18
    | .deprecatedNewOrderMessage => 20
  sizeofLayout
    | .loginMessage => 8
    | .newOrderMessage => 18
    | .deprecatedNewOrderMessage => 20
  getExpectedMessageId
    | .loginMessage => sampleLogin
    | .newOrderMessage => sampleNewOrder
    | .deprecatedNewOrderMessage => sampleNewOrder
  process
    | .loginMessage => fun buffer m => m.writeLE buffer 8 42
    | .newOrderMessage => fun _ m => m
    | .deprecatedNewOrderMessage => fun buffer m => m.writeLE (buffer + 18) 2 0

def registerNewOrder : Registration sampleMarket where
  messageId := sampleNewOrder
  messages := [SampleMessage.newOrderMessage]
  expected := List.forall_mem_singleton.mpr rfl
  layoutMatch := List.forall_mem_singleton.mpr rfl

def registerLoginMessage : Registration sampleMarket where
  messageId := sampleLogin
  messages := [SampleMessage.loginMessage]
  expected := List.forall_mem_singleton.mpr rfl
  layoutMatch := List.forall_mem_singleton.mpr rfl

def registerNewOrders : Registration sampleMarket where
  messageId := sampleNewOrder
  messages := [SampleMessage.newOrderMessage, SampleMessage.deprecatedNewOrderMessage]
  expected := by
    intro message hmem
    fin_cases hmem <;> rfl
  layoutMatch := by
    intro message hmem
    fin_cases hmem <;> rfl

/-- New orders are registered twice, the second time with the deprecated ones behind them. -/
def sampleHistory : List (Registration sampleMarket) :=
  [registerNewOrder, registerLoginMessage, registerNewOrders]

lemma isLatest_registerNewOrders : IsLatest sampleHistory sampleNewOrder registerNewOrders :=
  ⟨[registerNewOrder, registerLoginMessage], [], rfl, rfl, fun _ h => absurd h List.not_mem_nil⟩

lemma isFirstOfSize_deprecatedNewOrder :
    IsFirstOfSize 20 registerNewOrders.messages SampleMessage.deprecatedNewOrderMessage := by
  refine ⟨[SampleMessage.newOrderMessage], [], rfl, rfl, ?_⟩
  intro message hmem
  rw [List.mem_singleton.mp hmem]
  decide

/-- A deprecated order is processed as such: its last two bytes are cleared. -/
theorem tryProcess_dispatches_newOrder :
    ∃ dispatcher execution', MessageDispatcher.registerAll sampleHistory = some dispatcher ∧
      dispatcher.tryProcess sampleNewOrder 4096 20 ⟨fun _ => 255, []⟩ = some (true, execution') ∧
      execution'.processed = [(SampleMessage.deprecatedNewOrderMessage, 4096)] ∧
      execution'.memory 4113 = 255 ∧ execution'.memory 4114 = 0 := by
  obtain ⟨⟨dispatcher, result, execution', hrun, hprocess, hresult, htrue, -⟩, -⟩ :=
    tryProcess_dispatches rfl sampleHistory sampleNewOrder 4096 20 ⟨fun _ => 255, []⟩
  have hdone : result = true := hresult.mpr ⟨registerNewOrders, isLatest_registerNewOrders,
    SampleMessage.deprecatedNewOrderMessage, List.mem_cons_of_mem _ List.mem_cons_self, rfl⟩
  obtain ⟨registration, message, hlatest, hfirst, hmemory, hprocessed⟩ := htrue hdone
  obtain rfl := Option.some.inj ((latest_eq_some_iff.mpr isLatest_registerNewOrders).symm.trans
    (latest_eq_some_iff.mpr hlatest))
  obtain rfl := Option.some.inj
    ((MessageHandler.firstOfSize_eq_some_iff.mpr isFirstOfSize_deprecatedNewOrder).symm.trans
      (MessageHandler.firstOfSize_eq_some_iff.mpr hfirst))
  subst hdone
  refine ⟨dispatcher, execution', hrun, hprocess, hprocessed, ?_⟩
  rw [hmemory]
  decide +kernel

end Registrations

end CppBenchmark
