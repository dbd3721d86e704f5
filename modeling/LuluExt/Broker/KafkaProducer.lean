/-
The Kafka producer: one message on its way through `publishOneWriter` or `publishMultipleWriter`.

The two functions differ in where the writer is kept (one for the broker, or one for each topic), which is a parameter.
What the client library answers is an input: the results of all `WriteMessages` and `Close` calls, in the order in which
they are made. The calls are recorded, so that `Honest` can say what a caller relies on: nil means that some write
succeeded, and an error is the error of a write.

One variable holds the result of the first write, then of closing the old writer, then of the retries. So the error of
the write is lost when the cached writer is closed: with an error of `Close` that error is returned, and with no retries
nothing is left to return.
-/
import LuluExt.Lib.Go

namespace LuluExt.Kafka

structure Code where
  temporary : Bool
  timeout : Bool
deriving DecidableEq, Repr

/-- an error of the client library, with the Kafka error that `errors.As` finds in it -/
structure Failure where
  error : GoError
  code : Option Code
deriving DecidableEq, Repr

/-- the results of the library's calls, the first one at 0 -/
structure Answers where
  write : ℕ → Option Failure
  close : ℕ → Option Failure

inductive Call where
  | write (writer : ℕ) (result : Option Failure)
  | close (writer : ℕ) (result : Option Failure)
deriving DecidableEq, Repr

/-- `Writer` of the broker; a writer of the library is its number -/
structure Writers where
  writer : Option ℕ
  /-- by topic; nil after `Close` -/
  writers : Option (String → Option ℕ)
  created : ℕ

def createProducer (s : Writers) : ℕ × Writers := (s.created, { s with created := s.created + 1 })

/-- where a publication keeps its writer; `none` is the panic of storing into a nil map -/
structure Slot where
  get : Writers → Option ℕ
  set : ℕ → Writers → Option Writers
  clear : Writers → Writers
  /-- a place that held a writer can hold the next one -/
  set_isSome : ∀ s w, (get s).isSome → (set w (createProducer (clear s)).2).isSome

def brokerSlot : Slot where
  get s := s.writer
  set w s := some { s with writer := some w }
  clear s := { s with writer := none }
  set_isSome _ _ _ := rfl

/-- `b.writer.Writers[topic]` -/
@[simp] def topicSlot (topic : String) : Slot where
  get s := s.writers.bind fun m => m topic
  set w s := s.writers.map fun m => { s with writers := some (Function.update m topic (some w)) }
  clear s := { s with writers := s.writers.map fun m => Function.update m topic none }
  set_isSome s w h := by
    obtain ⟨m, hm⟩ := Option.isSome_iff_exists.1 (Option.isSome_of_isSome_bind h)
    simp [createProducer, hm]

/-- a publication that has ended, by a panic when there is no result -/
structure Published where
  result : Option (Option Failure)
  writers : Option Writers
  calls : List Call

/-! ## The calls -/

def Call.isWrite : Call → Bool
  | .write _ _ => true
  | .close _ _ => false

def writeMessages (ans : Answers) (w : ℕ) (calls : List Call) : Option Failure × List Call :=
  let r := ans.write (calls.countP Call.isWrite)
  (r, calls ++ [.write w r])

def closeWriter (ans : Answers) (w : ℕ) (calls : List Call) : Option Failure × List Call :=
  let r := ans.close (calls.countP fun c => !c.isWrite)
  (r, calls ++ [.close w r])

/-! ## Publication -/

def Failure.retryable (e : Failure) : Bool :=
  match e.code with
  | some kerr => kerr.temporary && !kerr.timeout
  | none => false

/-- `for i := 0; i < retriesCount; i++`, with `err` as it was before; the writer is kept once it has written -/
def retries (slot : Slot) (ans : Answers) (w : ℕ) :
    ℕ → Option Failure → Writers → List Call → Option (Option Failure × Writers × List Call)
  | 0, err, s, calls => some (err, s, calls)
  | n + 1, _, s, calls =>
    match writeMessages ans w calls with
    | (none, calls) => (slot.set w s).map fun s => (none, s, calls)
    | (some e, calls) => retries slot ans w n (some e) s calls

def retryNew (ans : Answers) (s : Writers) (w : ℕ) (e : Failure) (calls : List Call) : Published :=
  if e.retryable then
    let (err, calls) := writeMessages ans w calls
    ⟨some err, some s, calls⟩
  else ⟨some (some e), some s, calls⟩

def replaceCached (slot : Slot) (retriesCount : ℤ) (ans : Answers) (s : Writers) (w : ℕ) (calls : List Call) :
    Published :=
  match closeWriter ans w calls with
  | (some e, calls) => ⟨some (some e), some s, calls⟩
  | (none, calls) =>
    let (w', s) := createProducer (slot.clear s)
    match retries slot ans w' retriesCount.toNat none s calls with
    | none => ⟨none, some s, calls⟩
    | some (none, s, calls) => ⟨some none, some s, calls⟩
    | some (some e, s, calls) => ⟨some (some e), some s, (closeWriter ans w' calls).2⟩

def errNotInitialized : Failure := ⟨⟨"kafka writer not initialized"⟩, none⟩

def publishWith (slot : Slot) (retriesCount : ℤ) (ans : Answers) (b : Option Writers) : Published :=
  match b with
  | none => ⟨some (some errNotInitialized), none, []⟩
  | some s =>
    match slot.get s with
    | some w =>
      match writeMessages ans w [] with
      | (none, calls) => ⟨some none, some s, calls⟩
      | (some _, calls) => replaceCached slot retriesCount ans s w calls
    | none =>
      let (w, s) := createProducer s
      match slot.set w s with
      | none => ⟨none, some s, []⟩
      | some s =>
        match writeMessages ans w [] with
        | (none, calls) => ⟨some none, some s, calls⟩
        | (some e, calls) => retryNew ans s w e calls

def publishOneWriter (retriesCount : ℤ) (ans : Answers) (b : Option Writers) : Published :=
  publishWith brokerSlot retriesCount ans b

def publishMultipleWriter (retriesCount : ℤ) (ans : Answers) (b : Option Writers) (topic : String) : Published :=
  publishWith (topicSlot topic) retriesCount ans b

/-! ## Honesty -/

def Wrote (calls : List Call) (r : Option Failure) : Prop := ∃ w, .write w r ∈ calls

/-- the publication returns, and what it returns is the result of a write -/
def Honest (p : Published) : Prop := ∃ r, p.result = some r ∧ Wrote p.calls r

/-- when the first write fails, closing the cached writer does not lose its error -/
def Survives (retriesCount : ℤ) (ans : Answers) : Prop :=
  ∀ e, ans.write 0 = some e → ans.close 0 = some e ∨ ans.close 0 = none ∧ 0 < retriesCount

theorem wrote_writeMessages (ans : Answers) (w : ℕ) (calls : List Call) :
    Wrote (writeMessages ans w calls).2 (writeMessages ans w calls).1 :=
  ⟨w, by simp [writeMessages]⟩

theorem Wrote.close {calls : List Call} {r : Option Failure} (h : Wrote calls r) (ans : Answers) (w : ℕ) :
    Wrote (closeWriter ans w calls).2 r := by
  obtain ⟨w', hw⟩ := h
  exact ⟨w', by simp [closeWriter, hw]⟩

theorem retries_spec {slot : Slot} {w : ℕ} {s : Writers} (hset : (slot.set w s).isSome) (ans : Answers) {n : ℕ}
    {err : Option Failure} {calls : List Call} (h : Wrote calls err ∨ 0 < n) :
    ∃ r s' calls', retries slot ans w n err s calls = some (r, s', calls') ∧ Wrote calls' r := by
  induction n generalizing err calls with
  | zero =>
    have hw : Wrote calls err := h.resolve_right (Nat.lt_irrefl 0)
    exact ⟨err, s, calls, rfl, hw⟩
  | succ n ih =>
    have hlast := wrote_writeMessages ans w calls
    simp only [retries]
    rcases hw : writeMessages ans w calls with ⟨_ | e, calls'⟩
    · obtain ⟨s', hs'⟩ := Option.isSome_iff_exists.1 hset
      rw [hw] at hlast
      exact ⟨none, s', calls', by simp [hs'], hlast⟩
    · rw [hw] at hlast
      exact ih (.inl hlast)

theorem replaceCached_honest_iff {slot : Slot} {s : Writers} (retriesCount : ℤ) (ans : Answers) (w : ℕ)
    (hw : (slot.get s).isSome) {e : Failure} (he : ans.write 0 = some e) :
    Honest (replaceCached slot retriesCount ans s w [.write w (some e)]) ↔ Survives retriesCount ans := by
  have hsurvives : Survives retriesCount ans ↔ ans.close 0 = some e ∨ ans.close 0 = none ∧ 0 < retriesCount := by
    simp [Survives, he]
  rw [hsurvives]
  have hfirst : closeWriter ans w [.write w (some e)] =
      (ans.close 0, [.write w (some e), .close w (ans.close 0)]) := rfl
  simp only [replaceCached, hfirst]
  cases hc : ans.close 0 with
  | some e' => simp [Honest, Wrote]
  | none =>
    by_cases hpos : 0 < retriesCount
    · have hn : Wrote [.write w (some e), .close w none] none ∨ 0 < retriesCount.toNat := .inr (by omega)
      obtain ⟨r, s', calls', hr, hwrote⟩ :=
        retries_spec (slot.set_isSome s (createProducer (slot.clear s)).1 hw) ans hn
      refine ⟨fun _ => .inr ⟨rfl, hpos⟩, fun _ => ?_⟩
      simp only [hr]
      cases r with
      | none => exact ⟨none, rfl, hwrote⟩
      | some e' => exact ⟨some e', rfl, hwrote.close ans _⟩
    · -- no retry: the nil of `Close` is what is left
      have hzero : retriesCount.toNat = 0 := by omega
      simp [hzero, retries, Honest, Wrote, hpos]

/-- **Honest publications.** A publication is honest exactly when the broker is initialised, a new writer can be stored,
and the error of a cached writer survives closing it. -/
theorem publishWith_honest_iff (slot : Slot) (retriesCount : ℤ) (ans : Answers) (b : Option Writers) :
    Honest (publishWith slot retriesCount ans b) ↔
      ∃ s, b = some s ∧ (slot.get s = none → (slot.set (createProducer s).1 (createProducer s).2).isSome) ∧
        ((slot.get s).isSome → Survives retriesCount ans) := by
  cases b with
  | none => simp [publishWith, Honest, Wrote]
  | some s =>
    have hwrite : ∀ w, writeMessages ans w [] = (ans.write 0, [.write w (ans.write 0)]) := fun _ => rfl
    simp only [publishWith, hwrite, Option.some.injEq, exists_eq_left']
    cases hget : slot.get s with
    | some w =>
      cases he : ans.write 0 with
      | none => simp [Honest, Wrote, Survives, he]
      | some e => simpa using replaceCached_honest_iff retriesCount ans w (by simp [hget]) he
    | none =>
      cases hset : slot.set (createProducer s).1 (createProducer s).2 with
      | none => simp [Honest]
      | some s' =>
        cases he : ans.write 0 with
        | none => simp [Honest, Wrote]
        | some e =>
          -- a second write overwrites the error with its own result
          simp only [Option.isSome_some, implies_true, Option.isSome_none, Bool.false_eq_true, false_implies,
            and_self, iff_true, retryNew]
          split_ifs
          · exact ⟨_, rfl, wrote_writeMessages ans _ _⟩
          · exact ⟨some e, rfl, (createProducer s).1, by simp⟩

/-- **When nil and errors can be relied on.** A publication returns the result of a write, in either mode, if and only
if the broker is initialised, with its map of writers, and where a cached writer fails to write, either closing it
succeeds and there is a retry, or closing it fails with the error of the write. -/
theorem honest_iff (retriesCount : ℤ) (ans : Answers) (b : Option Writers) (topic : String) :
    (Honest (publishOneWriter retriesCount ans b) ↔
      ∃ s, b = some s ∧ (s.writer.isSome → Survives retriesCount ans)) ∧
    (Honest (publishMultipleWriter retriesCount ans b topic) ↔
      ∃ s m, b = some s ∧ s.writers = some m ∧ ((m topic).isSome → Survives retriesCount ans)) := by
  constructor
  · simp [publishOneWriter, publishWith_honest_iff, brokerSlot]
  · rw [publishMultipleWriter, publishWith_honest_iff]
    constructor
    · intro h
      obtain ⟨s, hb, hnew, hcached⟩ := h
      cases hm : s.writers with
      | none => simp [createProducer, hm] at hnew
      | some m => exact ⟨s, m, hb, hm, by simpa [hm] using hcached⟩
    · intro h
      obtain ⟨s, m, hb, hm, hcached⟩ := h
      refine ⟨s, hb, ?_, by simpa [hm] using hcached⟩
      simp [createProducer, hm]

def warmed : Writers := ⟨some 0, some fun _ => some 0, 1⟩

def brokenPipe : Failure := ⟨⟨"write: broken pipe"⟩, none⟩

def closeFailed : Failure := ⟨⟨"close: connection reset"⟩, none⟩

def down : Answers := ⟨fun _ => some brokenPipe, fun _ => none⟩

def downAndStuck : Answers := ⟨fun _ => some brokenPipe, fun _ => some closeFailed⟩

/-- **A message that was never written is reported as published**, without retries; with one the error of `Close` hides
that of the write. And a broker that was never initialised, and one that was disconnected. -/
theorem dishonest_publications :
    ((publishOneWriter 0 down (some warmed)).result = some none ∧
      ¬ Honest (publishOneWriter 0 down (some warmed))) ∧
    ((publishMultipleWriter 0 down (some warmed) "orders").result = some none ∧
      ¬ Honest (publishMultipleWriter 0 down (some warmed) "orders")) ∧
    ((publishOneWriter 1 downAndStuck (some warmed)).result = some (some closeFailed) ∧
      ¬ Honest (publishOneWriter 1 downAndStuck (some warmed))) ∧
    ((publishMultipleWriter 1 downAndStuck (some warmed) "orders").result = some (some closeFailed) ∧
      ¬ Honest (publishMultipleWriter 1 downAndStuck (some warmed) "orders")) ∧
    (publishOneWriter 1 down none).result = some (some errNotInitialized) ∧
    (publishMultipleWriter 1 down (some ⟨none, none, 1⟩) "orders").result = none := by
  have hlost : ¬ Survives 0 down := by simp [Survives, down]
  have hhidden : ¬ Survives 1 downAndStuck := by simp [Survives, downAndStuck, brokenPipe, closeFailed]
  refine ⟨⟨rfl, ?_⟩, ⟨rfl, ?_⟩, ⟨rfl, ?_⟩, ⟨rfl, ?_⟩, rfl, rfl⟩
  · simp [publishOneWriter, publishWith_honest_iff, brokerSlot, warmed, hlost]
  · simp [publishMultipleWriter, publishWith_honest_iff, warmed, hlost]
  · simp [publishOneWriter, publishWith_honest_iff, brokerSlot, warmed, hhidden]
  · simp [publishMultipleWriter, publishWith_honest_iff, warmed, hhidden]

end LuluExt.Kafka
