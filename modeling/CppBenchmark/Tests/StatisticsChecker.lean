import Mathlib.Tactic

/-!
# The allocation checker of the allocator tests

A `StatisticsChecker` queues the sizes a test expects and compares them with the sizes
that are recorded. Its `EXPECT_*` assertions report a failure and go on, so a size that is
recorded with nothing expected is compared with the front of an empty queue.
-/

namespace CppBenchmark

/-- The two kinds of sizes, each with its own queue. -/
inductive StatisticsKind
  | allocated
  | deallocated
  deriving DecidableEq

structure StatisticsChecker where
  expectedAllocatedBytes : List Nat
  expectedDeallocatedBytes : List Nat
  ignoreCheck : Bool

/-- A checker in a test: the failures reported so far, and whether `front()` or `pop()` was
executed on an empty queue, past which the test is not followed. -/
structure CheckedTest where
  checker : StatisticsChecker
  failures : Nat
  emptyAccess : Bool

namespace StatisticsChecker

def init : StatisticsChecker := ⟨[], [], false⟩

def queue (checker : StatisticsChecker) : StatisticsKind → List Nat
  | .allocated => checker.expectedAllocatedBytes
  | .deallocated => checker.expectedDeallocatedBytes

def setQueue (checker : StatisticsChecker) (kind : StatisticsKind) (sizes : List Nat) :
    StatisticsChecker :=
  match kind with
  | .allocated => { checker with expectedAllocatedBytes := sizes }
  | .deallocated => { checker with expectedDeallocatedBytes := sizes }

@[simp] lemma queue_setQueue (checker : StatisticsChecker) (kind kind' : StatisticsKind)
    (sizes : List Nat) : (checker.setQueue kind sizes).queue kind' =
      if kind = kind' then sizes else checker.queue kind' := by
  cases kind <;> cases kind' <;> rfl

@[simp] lemma ignoreCheck_setQueue (checker : StatisticsChecker) (kind : StatisticsKind)
    (sizes : List Nat) : (checker.setQueue kind sizes).ignoreCheck = checker.ignoreCheck := by
  cases kind <;> rfl

end StatisticsChecker

namespace CheckedTest

open StatisticsChecker

def init : CheckedTest := ⟨StatisticsChecker.init, 0, false⟩

/-- An `EXPECT_*` assertion. -/
def expectThat (holds : Bool) (t : CheckedTest) : CheckedTest :=
  if holds then t else { t with failures := t.failures + 1 }

@[simp] lemma checker_expectThat (holds : Bool) (t : CheckedTest) :
    (t.expectThat holds).checker = t.checker := by
  cases holds <;> rfl

@[simp] lemma emptyAccess_expectThat (holds : Bool) (t : CheckedTest) :
    (t.expectThat holds).emptyAccess = t.emptyAccess := by
  cases holds <;> rfl

@[simp] lemma failures_expectThat (holds : Bool) (t : CheckedTest) :
    (t.expectThat holds).failures = t.failures + if holds then 0 else 1 := by
  cases holds <;> rfl

def expect (kind : StatisticsKind) (iExpectedBytes : Nat) (t : CheckedTest) : CheckedTest :=
  { t with checker := t.checker.setQueue kind (t.checker.queue kind ++ [iExpectedBytes]) }

/-- `stale` is what `front()` reads from an empty queue. -/
def record (stale : Nat) (kind : StatisticsKind) (iBytes : Nat) (t : CheckedTest) : CheckedTest :=
  if t.checker.ignoreCheck then t
  else
    let t := t.expectThat (!(t.checker.queue kind).isEmpty)
    match t.checker.queue kind with
    | [] => { t.expectThat (iBytes = stale) with emptyAccess := true }
    | front :: sizes =>
      let t := t.expectThat (iBytes = front)
      { t with checker := t.checker.setQueue kind sizes }

def expectAllocate (iExpectedAllocatedBytes : Nat) : CheckedTest → CheckedTest :=
  expect .allocated iExpectedAllocatedBytes

def expectDeallocate (iExpectedDeallocatedBytes : Nat) : CheckedTest → CheckedTest :=
  expect .deallocated iExpectedDeallocatedBytes

def recordAllocate (stale iAllocatedBytes : Nat) : CheckedTest → CheckedTest :=
  record stale .allocated iAllocatedBytes

def recordDeallocate (stale iDeallocatedBytes : Nat) : CheckedTest → CheckedTest :=
  record stale .deallocated iDeallocatedBytes

def ignoreChecks (t : CheckedTest) : CheckedTest :=
  let t := t.expectThat t.checker.expectedAllocatedBytes.isEmpty
  let t := t.expectThat t.checker.expectedDeallocatedBytes.isEmpty
  { t with checker := { t.checker with ignoreCheck := true } }

end CheckedTest

inductive CheckerCall
  | expectAllocate (iExpectedAllocatedBytes : Nat)
  | expectDeallocate (iExpectedDeallocatedBytes : Nat)
  | recordAllocate (iAllocatedBytes : Nat)
  | recordDeallocate (iDeallocatedBytes : Nat)

namespace CheckerCall

def apply (stale : Nat) : CheckerCall → CheckedTest → CheckedTest
  | .expectAllocate n => CheckedTest.expectAllocate n
  | .expectDeallocate n => CheckedTest.expectDeallocate n
  | .recordAllocate n => CheckedTest.recordAllocate stale n
  | .recordDeallocate n => CheckedTest.recordDeallocate stale n

/-- The size a call expects, with its kind. -/
def expected : CheckerCall → Option (StatisticsKind × Nat)
  | .expectAllocate n => some (.allocated, n)
  | .expectDeallocate n => some (.deallocated, n)
  | _ => none

def recorded : CheckerCall → Option (StatisticsKind × Nat)
  | .recordAllocate n => some (.allocated, n)
  | .recordDeallocate n => some (.deallocated, n)
  | _ => none

end CheckerCall

open CheckerCall

/-- The calls of a test before its final `IgnoreChecks`. -/
def runCalls (stale : Nat) (calls : List CheckerCall) : CheckedTest :=
  calls.foldl (fun t call => if t.emptyAccess then t else call.apply stale t) CheckedTest.init

def runTest (stale : Nat) (calls : List CheckerCall) : CheckedTest :=
  let t := runCalls stale calls
  if t.emptyAccess then t else t.ignoreChecks

/-- The sizes expected of one kind, in the order of the calls. -/
def expectations (kind : StatisticsKind) (calls : List CheckerCall) : List Nat :=
  (calls.filterMap expected).filterMap (fun e => if e.1 = kind then some e.2 else none)

def recordings (kind : StatisticsKind) (calls : List CheckerCall) : List Nat :=
  (calls.filterMap recorded).filterMap (fun e => if e.1 = kind then some e.2 else none)

/-- The oldest size expected of a kind that no recorded size has used up. -/
def oldestExpected (calls : List CheckerCall) (kind : StatisticsKind) : Option Nat :=
  (expectations kind calls)[(recordings kind calls).length]?

/-- A property of each recorded size and the calls before it. -/
def AtEachRecord (P : List CheckerCall → StatisticsKind → Nat → Prop)
    (calls : List CheckerCall) : Prop :=
  ∀ before call after, calls = before ++ call :: after →
    ∀ kind n, call.recorded = some (kind, n) → P before kind n

/-- Each recorded size is the oldest one expected. -/
def RecordsMatch : List CheckerCall → Prop :=
  AtEachRecord (fun before kind n => oldestExpected before kind = some n)

/-- Each recorded size is the oldest one expected, and no expectation is left. -/
structure Accepted (calls : List CheckerCall) : Prop where
  records : RecordsMatch calls
  nothingLeft : ∀ kind, oldestExpected calls kind = none

/-- No size is recorded more often than sizes of its kind are expected. -/
def Anticipated : List CheckerCall → Prop :=
  AtEachRecord (fun before kind _ => (oldestExpected before kind).isSome)

section Sequences

variable {calls : List CheckerCall} {call : CheckerCall} {kind kind' : StatisticsKind} {n : Nat}

/-- Every call expects a size or records one. -/
lemma CheckerCall.cases (call : CheckerCall) : ∃ kind n,
    (call.expected = some (kind, n) ∧ call.recorded = none ∧
      ∀ stale, call.apply stale = CheckedTest.expect kind n) ∨
    (call.recorded = some (kind, n) ∧ call.expected = none ∧
      ∀ stale, call.apply stale = CheckedTest.record stale kind n) := by
  cases call with
  | expectAllocate n => exact ⟨.allocated, n, Or.inl ⟨rfl, rfl, fun _ => rfl⟩⟩
  | expectDeallocate n => exact ⟨.deallocated, n, Or.inl ⟨rfl, rfl, fun _ => rfl⟩⟩
  | recordAllocate n => exact ⟨.allocated, n, Or.inr ⟨rfl, rfl, fun _ => rfl⟩⟩
  | recordDeallocate n => exact ⟨.deallocated, n, Or.inr ⟨rfl, rfl, fun _ => rfl⟩⟩

lemma expectations_concat_none (h : call.expected = none) :
    expectations kind (calls ++ [call]) = expectations kind calls := by
  simp [expectations, h]

lemma expectations_concat_some (h : call.expected = some (kind', n)) :
    expectations kind (calls ++ [call]) =
      if kind' = kind then expectations kind calls ++ [n] else expectations kind calls := by
  split_ifs with heq <;> simp [expectations, h, heq]

lemma recordings_concat_none (h : call.recorded = none) :
    recordings kind (calls ++ [call]) = recordings kind calls := by
  simp [recordings, h]

lemma recordings_concat_some (h : call.recorded = some (kind', n)) :
    recordings kind (calls ++ [call]) =
      if kind' = kind then recordings kind calls ++ [n] else recordings kind calls := by
  split_ifs with heq <;> simp [recordings, h, heq]

variable {P Q : List CheckerCall → StatisticsKind → Nat → Prop}

lemma atEachRecord_nil : AtEachRecord P [] := by
  intro before call after h
  simp at h

lemma atEachRecord_concat : AtEachRecord P (calls ++ [call]) ↔
    AtEachRecord P calls ∧ ∀ kind n, call.recorded = some (kind, n) → P calls kind n := by
  constructor
  · intro h
    refine ⟨?_, fun kind n => h calls call [] rfl kind n⟩
    rintro before c after rfl
    exact h before c (after ++ [call]) (by simp)
  · rintro ⟨hcalls, hlast⟩ before c after h
    rcases List.eq_nil_or_concat after with rfl | ⟨after', c', rfl⟩
    · obtain ⟨rfl, hc⟩ := List.append_inj' h rfl
      obtain rfl : call = c := by simpa using hc
      exact hlast
    · rw [List.concat_eq_append, ← List.cons_append, ← List.append_assoc] at h
      obtain ⟨rfl, -⟩ := List.append_inj' h rfl
      exact hcalls before c after' rfl

lemma AtEachRecord.mono (h : AtEachRecord P calls) (hPQ : ∀ before kind n, P before kind n →
    Q before kind n) : AtEachRecord Q calls :=
  fun before call after heq kind n hn => hPQ before kind n (h before call after heq kind n hn)

lemma RecordsMatch.anticipated (h : RecordsMatch calls) : Anticipated calls :=
  AtEachRecord.mono h (fun _ _ _ heq => by rw [heq, Option.isSome_some])

end Sequences

namespace CheckedTest

variable {t : CheckedTest} {kind : StatisticsKind} {n stale front : Nat} {sizes : List Nat}

/-- A size recorded with nothing expected fails, and reads an empty queue. -/
lemma record_nil (hcheck : t.checker.ignoreCheck = false) (hqueue : t.checker.queue kind = []) :
    (t.record stale kind n).failures ≠ 0 ∧ (t.record stale kind n).emptyAccess = true := by
  unfold record
  rw [hcheck, if_neg Bool.false_ne_true]
  simp only [checker_expectThat, hqueue]
  simp

lemma record_cons (hcheck : t.checker.ignoreCheck = false)
    (hqueue : t.checker.queue kind = front :: sizes) :
    t.record stale kind n =
      { t with
        checker := t.checker.setQueue kind sizes
        failures := t.failures + if n = front then 0 else 1 } := by
  unfold record
  rw [hcheck, if_neg Bool.false_ne_true]
  simp only [checker_expectThat, hqueue]
  simp

end CheckedTest

/-- The queue of each kind holds the expected sizes that no recorded size has used up. -/
structure Tracks (calls : List CheckerCall) (t : CheckedTest) : Prop where
  checking : t.checker.ignoreCheck = false
  consumed : ∀ kind, (recordings kind calls).length ≤ (expectations kind calls).length
  queues : ∀ kind, t.checker.queue kind =
    (expectations kind calls).drop (recordings kind calls).length

/-- What a test knows after its calls. -/
structure Reflects (calls : List CheckerCall) (t : CheckedTest) : Prop where
  failures : t.failures = 0 ↔ RecordsMatch calls
  emptyAccess : t.emptyAccess = false ↔ Anticipated calls
  tracks : t.emptyAccess = false → Tracks calls t

section Runs

variable {calls : List CheckerCall} {t : CheckedTest} {kind : StatisticsKind} {n stale : Nat}

lemma Tracks.oldest_eq (h : Tracks calls t) (kind : StatisticsKind) :
    oldestExpected calls kind = (t.checker.queue kind).head? := by
  rw [h.queues, List.head?_drop, oldestExpected]

lemma Tracks.expect (h : Tracks calls t) {call : CheckerCall}
    (hexpected : call.expected = some (kind, n)) (hrecorded : call.recorded = none) :
    Tracks (calls ++ [call]) (t.expect kind n) := by
  refine ⟨by simpa [CheckedTest.expect] using h.checking, ?_, ?_⟩
  · intro kind'
    have hle := h.consumed kind'
    rw [recordings_concat_none hrecorded, expectations_concat_some hexpected]
    split_ifs <;> simp <;> omega
  · intro kind'
    have hle := h.consumed kind'
    rw [recordings_concat_none hrecorded, expectations_concat_some hexpected]
    simp only [CheckedTest.expect, StatisticsChecker.queue_setQueue, h.queues]
    split_ifs with heq
    · subst heq
      rw [List.drop_append_of_le_length hle]
    · rfl

lemma Tracks.record (h : Tracks calls t) {call : CheckerCall} {front : Nat} {sizes : List Nat}
    (hrecorded : call.recorded = some (kind, n)) (hexpected : call.expected = none)
    (hqueue : t.checker.queue kind = front :: sizes) :
    Tracks (calls ++ [call]) (t.record stale kind n) := by
  have hdrop := h.queues kind
  rw [hqueue] at hdrop
  rw [CheckedTest.record_cons h.checking hqueue]
  refine ⟨by simpa using h.checking, ?_, ?_⟩
  · intro kind'
    have hle := h.consumed kind'
    rw [expectations_concat_none hexpected, recordings_concat_some hrecorded]
    split_ifs with heq
    · subst heq
      have hlength := congrArg List.length hdrop
      rw [List.length_cons, List.length_drop] at hlength
      rw [List.length_append, List.length_singleton]
      omega
    · exact hle
  · intro kind'
    rw [expectations_concat_none hexpected, recordings_concat_some hrecorded,
      StatisticsChecker.queue_setQueue]
    split_ifs with heq
    · subst heq
      rw [List.length_append, List.length_singleton, ← List.tail_drop, ← hdrop, List.tail_cons]
    · exact h.queues kind'

lemma reflects_init : Reflects [] CheckedTest.init := by
  refine ⟨⟨fun _ => atEachRecord_nil, fun _ => rfl⟩, ⟨fun _ => atEachRecord_nil, fun _ => rfl⟩, ?_⟩
  intro _
  exact ⟨rfl, fun _ => le_rfl, fun kind => by cases kind <;> rfl⟩

lemma Reflects.expect (h : Reflects calls t) {call : CheckerCall}
    (hexpected : call.expected = some (kind, n)) (hrecorded : call.recorded = none) :
    Reflects (calls ++ [call]) (t.expect kind n) := by
  have hsame : ∀ P, AtEachRecord P (calls ++ [call]) ↔ AtEachRecord P calls := by
    intro P
    rw [atEachRecord_concat, hrecorded]
    simp
  refine ⟨?_, ?_, fun hempty => (h.tracks hempty).expect hexpected hrecorded⟩
  · rw [RecordsMatch, hsame]
    exact h.failures
  · rw [Anticipated, hsame]
    exact h.emptyAccess

/-- A recorded size is compared with the oldest one expected. -/
lemma Reflects.record (h : Reflects calls t) (hempty : t.emptyAccess = false) {call : CheckerCall}
    (hrecorded : call.recorded = some (kind, n)) (hexpected : call.expected = none) :
    Reflects (calls ++ [call]) (t.record stale kind n) := by
  have htracks := h.tracks hempty
  have holdest := htracks.oldest_eq kind
  have hlast : ∀ P : List CheckerCall → StatisticsKind → Nat → Prop,
      AtEachRecord P (calls ++ [call]) ↔ AtEachRecord P calls ∧ P calls kind n := by
    intro P
    rw [atEachRecord_concat, hrecorded]
    simp
  cases hqueue : t.checker.queue kind with
  | nil =>
    obtain ⟨hfailures, hread⟩ := @CheckedTest.record_nil t kind n stale htracks.checking hqueue
    rw [hqueue, List.head?_nil] at holdest
    refine ⟨?_, ?_, ?_⟩
    · rw [RecordsMatch, hlast, holdest]
      simpa using hfailures
    · rw [Anticipated, hlast, holdest, hread]
      simp
    · rw [hread]
      simp
  | cons front sizes =>
    rw [hqueue, List.head?_cons] at holdest
    have hnext : Tracks (calls ++ [call]) (t.record stale kind n) :=
      htracks.record hrecorded hexpected hqueue
    rw [CheckedTest.record_cons htracks.checking hqueue] at hnext ⊢
    refine ⟨?_, ?_, fun _ => hnext⟩
    · rw [RecordsMatch, hlast, ← RecordsMatch, ← h.failures, holdest, Option.some.injEq]
      by_cases heq : n = front
      · simp [heq]
      · simp [heq, Ne.symm heq]
    · rw [Anticipated, hlast, holdest]
      exact ⟨fun _ => ⟨h.emptyAccess.mp hempty, rfl⟩, fun _ => hempty⟩

/-- Past an access of an empty queue nothing changes, and neither condition holds again. -/
lemma Reflects.stuck (h : Reflects calls t) (hempty : t.emptyAccess = true) (call : CheckerCall) :
    Reflects (calls ++ [call]) t := by
  have hnot : ¬Anticipated calls := by
    rw [← h.emptyAccess, hempty]
    simp
  refine ⟨?_, ?_, ?_⟩
  · rw [h.failures, RecordsMatch, atEachRecord_concat, ← RecordsMatch]
    constructor
    · intro hmatches
      exact absurd hmatches.anticipated hnot
    · exact fun hmatches => hmatches.1
  · rw [hempty, Anticipated, atEachRecord_concat]
    exact ⟨fun htrue => absurd htrue Bool.noConfusion, fun hboth => absurd hboth.1 hnot⟩
  · rw [hempty]
    simp

lemma runCalls_reflects (stale : Nat) (calls : List CheckerCall) :
    Reflects calls (runCalls stale calls) := by
  induction calls using List.reverseRecOn with
  | nil => exact reflects_init
  | append_singleton calls call ih =>
    have hrun : runCalls stale (calls ++ [call]) = if (runCalls stale calls).emptyAccess then
        runCalls stale calls else call.apply stale (runCalls stale calls) := by
      rw [runCalls, List.foldl_append, List.foldl_cons, List.foldl_nil, ← runCalls]
    rw [hrun]
    cases hempty : (runCalls stale calls).emptyAccess with
    | true => exact ih.stuck hempty call
    | false =>
      rw [if_neg Bool.false_ne_true]
      obtain ⟨kind, n, ⟨hexpected, hrecorded, happly⟩ | ⟨hrecorded, hexpected, happly⟩⟩ := call.cases
      · rw [happly]
        exact ih.expect hexpected hrecorded
      · rw [happly]
        exact ih.record hempty hrecorded hexpected

lemma runTest_stuck (h : (runCalls stale calls).emptyAccess = true) :
    runTest stale calls = runCalls stale calls := by
  simp [runTest, h]

lemma runTest_checked (h : (runCalls stale calls).emptyAccess = false) :
    runTest stale calls = (runCalls stale calls).ignoreChecks := by
  simp [runTest, h]

lemma CheckedTest.emptyAccess_ignoreChecks (t : CheckedTest) :
    t.ignoreChecks.emptyAccess = t.emptyAccess := by
  simp [CheckedTest.ignoreChecks]

lemma CheckedTest.failures_ignoreChecks (t : CheckedTest) : t.ignoreChecks.failures = 0 ↔
    t.failures = 0 ∧ ∀ kind, t.checker.queue kind = [] := by
  have hkinds : (∀ kind, t.checker.queue kind = []) ↔
      t.checker.expectedAllocatedBytes = [] ∧ t.checker.expectedDeallocatedBytes = [] :=
    ⟨fun h => ⟨h .allocated, h .deallocated⟩, fun h kind => by cases kind; exacts [h.1, h.2]⟩
  rw [hkinds]
  simp [CheckedTest.ignoreChecks, and_assoc]

end Runs

/-- A test reports no failure exactly when its run is the expected one, whatever an empty
queue returns, and it never reads an empty queue exactly when no size is recorded with
nothing expected. -/
theorem statisticsChecker_iff (stale : Nat) (calls : List CheckerCall) :
    ((runTest stale calls).failures = 0 ↔ Accepted calls) ∧
      (((runTest stale calls).emptyAccess = false ∧
        ((runTest stale calls).failures = 0 ↔ Accepted calls)) ↔ Anticipated calls) := by
  have hreflects := runCalls_reflects stale calls
  cases hempty : (runCalls stale calls).emptyAccess with
  | true =>
    have hnot : ¬Anticipated calls := by
      rw [← hreflects.emptyAccess, hempty]
      exact Bool.noConfusion
    rw [runTest_stuck hempty, hreflects.failures, hempty]
    have hfailures : RecordsMatch calls ↔ Accepted calls :=
      ⟨fun hmatches => absurd hmatches.anticipated hnot, fun h => h.records⟩
    exact ⟨hfailures, fun h => absurd h.1 Bool.noConfusion, fun h => absurd h hnot⟩
  | false =>
    have htracks := hreflects.tracks hempty
    rw [runTest_checked hempty, CheckedTest.emptyAccess_ignoreChecks,
      CheckedTest.failures_ignoreChecks, hreflects.failures, hreflects.emptyAccess]
    have hfailures : (RecordsMatch calls ∧ ∀ kind, (runCalls stale calls).checker.queue kind = []) ↔
        Accepted calls := by
      constructor
      · rintro ⟨hmatches, hqueues⟩
        exact ⟨hmatches, fun kind => by rw [htracks.oldest_eq, hqueues, List.head?_nil]⟩
      · intro haccepted
        refine ⟨haccepted.records, fun kind => ?_⟩
        rw [← List.head?_eq_none_iff, ← htracks.oldest_eq]
        exact haccepted.nothingLeft kind
    exact ⟨hfailures, and_iff_left hfailures⟩

/-- A size is recorded by a checker that expects nothing. -/
theorem record_reads_empty_queue :
    (runTest 0 [.recordAllocate 8]).emptyAccess = true ∧
      ¬((runTest 0 [.recordAllocate 8]).emptyAccess = false ∧
        ((runTest 0 [.recordAllocate 8]).failures = 0 ↔ Accepted [.recordAllocate 8])) := by
  have hread : (runTest 0 [.recordAllocate 8]).emptyAccess = true := by decide
  refine ⟨hread, ?_⟩
  rintro ⟨hempty, -⟩
  rw [hread] at hempty
  cases hempty

end CppBenchmark
