import CppBenchmark.Messages.MessageLayout
import CppBenchmark.Messages.TableIndices

/-!
# Message flow

The messages of a market are objects of declared layouts that stand in the buffers given to
its dispatcher. Registrations and buffers come in any order; each buffer is processed as the
registrations before it say, and no memory changes but that of the processed messages.
-/

namespace CppBenchmark

open ByteMemory RecordLayout

/-- `DECLARE_MESSAGE` and `DECLARE_DEFAULT_MESSAGE`: the id and the layout of each message,
and the setters that its `Process` calls on the object it finds. -/
structure MessageMarket where
  underlying : UnderlyingType
  Message : Type
  layout : Message → MessageLayout
  getExpectedMessageId : Message → MessageTypeT underlying
  setters : (message : Message) → List UInt8 → List ((layout message).SetterCall)
  this_object : ∀ message object, ∀ call ∈ setters message object, call.object = 0

namespace MessageMarket

variable (market : MessageMarket)

/-- The bytes of the message that stands in a buffer. -/
def object (message : market.Message) (buffer : Nat) (memory : Memory) : List UInt8 :=
  memory.read buffer (market.layout message).size

def process (message : market.Message) (buffer : Nat) (memory : Memory) : Memory :=
  MessageLayout.runSetters (market.setters message (market.object message buffer memory)) buffer
    memory

abbrev traits : MarketTraits where
  underlying := market.underlying
  Message := market.Message
  sizeof message := (market.layout message).size
  sizeofLayout message := (market.layout message).size
  getExpectedMessageId := market.getExpectedMessageId
  process := market.process

variable {market}

/-- `Process` writes to its own object only. -/
lemma process_outside {message : market.Message} {buffer a : Nat} (memory : Memory)
    (ha : a < buffer ∨ buffer + (market.layout message).size ≤ a) :
    market.process message buffer memory a = memory a := by
  rw [process, MessageLayout.runSetters_eq]
  apply MemoryCells.applyAll_outside
  rw [List.forall_mem_map]
  intro call hcall
  have hobject := market.this_object message _ call hcall
  have hin := offset_add_le_sizeof call.member.2
  have hsize : (market.layout message).size = sizeof (market.layout message).members :=
    (market.layout message).size_eq
  change a < address _ buffer call.object call.member ∨
    address _ buffer call.object call.member + _ ≤ a
  rw [address, hobject, Nat.zero_mul, Nat.add_zero]
  change a < _ ∨ _ + (market.layout message).members[call.member].sizeof ≤ a
  dsimp only [Fin.getElem_fin] at hin ⊢
  omega

/-- The processed messages, one after the other. -/
def processAll (market : MessageMarket) (processed : List (market.Message × Nat))
    (memory : Memory) : Memory :=
  processed.foldl (fun memory x => market.process x.1 x.2 memory) memory

lemma processAll_outside {processed : List (market.Message × Nat)} {a : Nat} (memory : Memory)
    (ha : ∀ x ∈ processed, a < x.2 ∨ x.2 + (market.layout x.1).size ≤ a) :
    market.processAll processed memory a = memory a := by
  induction processed generalizing memory with
  | nil => rfl
  | cons x processed ih =>
    rw [List.forall_mem_cons] at ha
    exact (ih _ ha.2).trans (process_outside memory ha.1)

lemma processAll_concat (processed : List (market.Message × Nat)) (x : market.Message × Nat)
    (memory : Memory) : market.processAll (processed ++ [x]) memory =
      market.process x.1 x.2 (market.processAll processed memory) :=
  List.foldl_concat _ _ _ _

end MessageMarket

section Dispatched

variable {traits : MarketTraits}

open MessageHandler

/-- What the calls process: each buffer as the latest registration before it says. -/
def dispatched (history : List (Registration traits)) :
    List (DispatcherCall traits) → List (traits.Message × Nat)
  | [] => []
  | .registerMessage registration :: calls => dispatched (history ++ [registration]) calls
  | .tryProcess messageId buffer bufferSize :: calls =>
    ((latest history messageId).bind (fun r => firstOfSize bufferSize r.messages)).toList.map
      (fun message => (message, buffer)) ++ dispatched history calls

variable {history : List (Registration traits)} {calls : List (DispatcherCall traits)}
  {dispatcher : MessageDispatcher traits}

/-- A buffer is only ever processed as a message of its id and of its size. -/
lemma exists_call_of_dispatched {message : traits.Message} {buffer : Nat}
    (h : (message, buffer) ∈ dispatched history calls) :
    .tryProcess (traits.getExpectedMessageId message) buffer (traits.sizeof message) ∈ calls := by
  induction calls generalizing history with
  | nil => exact absurd h List.not_mem_nil
  | cons call calls ih =>
    cases call with
    | registerMessage registration => exact List.mem_cons_of_mem _ (ih h)
    | tryProcess messageId buffer' bufferSize =>
      rcases List.mem_append.mp h with h | h
      · obtain ⟨message', hmessage, heq⟩ := List.mem_map.mp h
        obtain ⟨rfl, rfl⟩ := Prod.mk.inj heq
        obtain ⟨r, hr, hfirst⟩ := Option.bind_eq_some_iff.mp (Option.mem_toList.mp hmessage)
        obtain ⟨-, -, -, hid, -⟩ := latest_eq_some_iff.mp hr
        obtain ⟨before, after, hmessages, hsize, -⟩ := firstOfSize_eq_some_iff.mp hfirst
        have hmem : message' ∈ r.messages := by
          rw [hmessages]
          exact List.mem_append_right _ List.mem_cons_self
        rw [← r.expected message' hmem, hid, hsize]
        exact List.mem_cons_self
      · exact List.mem_cons_of_mem _ (ih h)

lemma apply_tryProcess (hunsigned : traits.underlying.signed = false)
    (h : dispatcher.Holds history) (messageId : MessageTypeT traits.underlying)
    (buffer bufferSize : Nat) (execution : Execution traits) :
    DispatcherCall.apply (dispatcher, execution) (.tryProcess messageId buffer bufferSize) =
      some (dispatcher, (((latest history messageId).bind
        (fun r => firstOfSize bufferSize r.messages)).toList.map
          (fun message => (message, buffer))).foldl (fun e x => e.process x.1 x.2) execution) := by
  have hindex := (messageId.toSize_eq hunsigned).2
  rw [DispatcherCall.apply, MessageDispatcher.tryProcess, dif_pos hindex, h messageId hindex,
    tryProcess_eq]
  cases latest history messageId with
  | none => rfl
  | some r =>
    rw [Option.bind_some]
    dsimp only [Option.map_some, Option.getD_some]
    cases firstOfSize bufferSize r.messages with
    | none => rfl
    | some message => rfl

/-- A run processes what its calls dispatch, in their order. -/
lemma run_dispatched (hunsigned : traits.underlying.signed = false)
    (h : dispatcher.Holds history) (execution : Execution traits) :
    ∃ dispatcher', DispatcherCall.run calls (dispatcher, execution) = some (dispatcher',
      (dispatched history calls).foldl (fun e x => e.process x.1 x.2) execution) := by
  induction calls generalizing history dispatcher execution with
  | nil => exact ⟨dispatcher, rfl⟩
  | cons call calls ih =>
    cases call with
    | registerMessage registration =>
      obtain ⟨dispatcher', hregister, hholds⟩ := h.registerMessage hunsigned registration
      obtain ⟨last, hlast⟩ := ih hholds execution
      refine ⟨last, ?_⟩
      rw [DispatcherCall.run, List.foldlM_cons, DispatcherCall.apply, hregister]
      exact hlast
    | tryProcess messageId buffer bufferSize =>
      obtain ⟨last, hlast⟩ := ih h _
      refine ⟨last, ?_⟩
      rw [DispatcherCall.run, List.foldlM_cons, apply_tryProcess hunsigned h, dispatched,
        List.foldl_append]
      exact hlast

end Dispatched

section Runs

variable {market : MessageMarket}

lemma foldl_process (processed : List (market.Message × Nat)) (execution : Execution market.traits) :
    processed.foldl (fun e x => Execution.process e x.1 x.2) execution =
      ⟨market.processAll processed execution.memory, execution.processed ++ processed⟩ := by
  induction processed generalizing execution with
  | nil => exact congrArg (Execution.mk _) (List.append_nil _).symm
  | cons x processed ih =>
    rw [List.foldl_cons, ih]
    exact congrArg (Execution.mk _) (List.append_assoc _ _ _)

/-- However registrations and buffers alternate, every buffer is processed as the latest
registration of its id before it says, as a message of its id and its size. Memory outside
the processed messages stays as it was, and after each message every getter of its layout
returns what the message's setters last set, or what was there before. -/
theorem messageFlow_correct (hunsigned : market.underlying.signed = false)
    (calls : List (DispatcherCall market.traits)) (memory : Memory) :
    ∃ dispatcher, DispatcherCall.run calls (MessageDispatcher.init, ⟨memory, []⟩) =
        some (dispatcher, ⟨market.processAll (dispatched [] calls) memory, dispatched [] calls⟩) ∧
      (∀ x ∈ dispatched [] calls, .tryProcess (market.getExpectedMessageId x.1) x.2
        (market.layout x.1).size ∈ calls) ∧
      (∀ a, (∀ x ∈ dispatched [] calls, a < x.2 ∨ x.2 + (market.layout x.1).size ≤ a) →
        market.processAll (dispatched [] calls) memory a = memory a) ∧
      ∀ before message buffer after, dispatched [] calls = before ++ (message, buffer) :: after →
        ∀ i, ∀ x ∈ ((market.layout message).property i).names,
          (market.layout message).get buffer 0 x
              (market.processAll (before ++ [(message, buffer)]) memory) =
            (MessageLayout.lastSet (market.setters message
              (market.object message buffer (market.processAll before memory))) 0 i).or
              ((market.layout message).get buffer 0 x (market.processAll before memory)) := by
  obtain ⟨dispatcher, hrun⟩ :=
    run_dispatched hunsigned (@MessageDispatcher.init_holds market.traits) ⟨memory, []⟩
  refine ⟨dispatcher, ?_, ?_, ?_, ?_⟩
  · rw [hrun, foldl_process]
    rfl
  · rintro ⟨message, buffer⟩ hx
    exact exists_call_of_dispatched hx
  · exact fun a ha => MessageMarket.processAll_outside memory ha
  · intro before message buffer after _ i x hx
    rw [MessageMarket.processAll_concat]
    exact MessageLayout.get_runSetters _ buffer 0 _ hx

/-- The login message of the dispatcher test, whose `Process` calls `SetLoginId(42)`. -/
def loginMessage : MessageLayout where
  name := "LoginMessage"
  size := 8
  packing := .packed
  properties := [⟨PropertyType.unsigned 3, "LoginId", none⟩]
  properties_ne := List.cons_ne_nil _ _
  names_nodup := by decide
  size_eq := by decide

def setLoginId : loginMessage.SetterCall where
  object := 0
  x := "LoginId"
  member := ⟨0, by decide⟩
  declared := List.mem_cons_self
  value := toBytesLE 8 42
  value_length := rfl

def loginMarket : MessageMarket where
  underlying := sampleIdType
  Message := Unit
  layout _ := loginMessage
  getExpectedMessageId _ := sampleLogin
  setters _ _ := [setLoginId]
  this_object _ _ call hcall := by
    rw [List.mem_singleton.mp hcall]
    rfl

def registerLogin : Registration loginMarket.traits where
  messageId := sampleLogin
  messages := [()]
  expected _ _ := rfl
  layoutMatch _ _ := rfl

def loginCalls : List (DispatcherCall loginMarket.traits) :=
  [.tryProcess registerLogin.messageId 4096 8, .registerMessage registerLogin,
    .tryProcess registerLogin.messageId 8192 8]

/-- A buffer that comes before its id is registered is left alone, and one after it is
processed. -/
theorem messageFlow_correct_login : ∃ dispatcher,
    DispatcherCall.run loginCalls (MessageDispatcher.init, ⟨fun _ => 0, []⟩) = some (dispatcher,
      ⟨loginMarket.processAll [((), 8192)] (fun _ => 0), [((), 8192)]⟩) := by
  have hdispatched : dispatched [] loginCalls = [((), 8192)] := rfl
  obtain ⟨dispatcher, hrun, -⟩ := messageFlow_correct rfl loginCalls (fun _ => 0)
  rw [hdispatched] at hrun
  exact ⟨dispatcher, hrun⟩

end Runs

end CppBenchmark
