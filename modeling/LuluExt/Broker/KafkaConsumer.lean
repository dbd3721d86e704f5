/-
The Kafka consumer: the fetch loops in single and batch mode, and the offsets they commit.

A message is acknowledged only when it was decoded and handled; one that was not is logged and left alone. A commit is
cumulative: it stands for every lower offset of its partition. One iteration of a loop is one event of the reader, the
ticker or the subscription, and what happens to a message (decoding, handler, commit) is part of the message. Offsets
are those of the library, with the marks as the committed offsets; the messages that failed and the offsets handled are
recorded beside them.

Batch mode starts a ticker and a buffer, both of which panic on a size or interval they cannot have: then the loop never
runs. What is in the buffer when the loop ends is dropped.
-/
import LuluExt.Lib.Watermark

namespace LuluExt.Kafka

open Run Watermark

structure Config where
  binder : Bool
  autoAck : Bool
  batchSize : ℤ
  /-- nanoseconds -/
  batchInterval : ℤ
deriving DecidableEq, Repr

structure Message where
  partition : ℕ
  offset : ℕ
  /-- `broker.Unmarshal` returns nil -/
  decodes : Bool
  handles : Bool
  /-- `CommitMessages` returns nil -/
  commits : Bool
deriving DecidableEq, Repr

/-- `pub.Ack()` -/
def commitMessages (s : Marks ℕ) (m : Message) : Marks ℕ :=
  { s with mark := Function.update s.mark m.partition (m.offset + 1) }

/-- returns whether the message failed -/
def handleMessage (cfg : Config) (s : Marks ℕ) (m : Message) : Bool × Marks ℕ :=
  let s := { s with seen := Function.update s.seen m.partition (m.offset + 1) }
  let lost := { s with failed := (m.partition, m.offset) :: s.failed }
  if cfg.binder = true ∧ m.decodes = false then (true, lost)
  else if m.handles = false then (true, lost)
  else if cfg.autoAck = true then
    if m.commits = false then (true, s) else (false, commitMessages s m)
  else (false, s)

def handleBatchMessage (cfg : Config) (s : Marks ℕ) (messages : List Message) : Marks ℕ :=
  messages.foldl (fun s m => (handleMessage cfg s m).2) s

inductive FetchError where
  | fatal
  | deadlineExceeded
  | other
deriving DecidableEq, Repr

inductive Event where
  | fetch (m : Message)
  | fetchError (e : FetchError)
  | tick
  /-- the context ends, or the subscription is closed -/
  | stop
deriving DecidableEq, Repr

structure Loop where
  offsets : Marks ℕ
  /-- the next offset the reader fetches, for each partition -/
  position : ℕ → ℕ
  messageBuffer : List Message
  deadlineAttempt : ℕ
  errorAttempt : ℕ
  running : Bool

def isBatchMode (cfg : Config) : Bool := decide (cfg.batchSize > 0 ∨ cfg.batchInterval > 0)

/-- the loop on entry, with the offsets committed so far; `time.NewTicker` and `make` panic in batch mode -/
def start (cfg : Config) (committed : ℕ → ℕ) : Loop where
  offsets := ⟨committed, committed, []⟩
  position := committed
  messageBuffer := []
  deadlineAttempt := 0
  errorAttempt := 0
  running := !isBatchMode cfg || decide (cfg.batchInterval > 0 ∧ cfg.batchSize ≥ 0)

def nextAttempt (attempt : ℕ) : ℕ := if attempt < 6 then attempt + 1 else attempt

def fetched (l : Loop) (m : Message) : Loop :=
  { l with position := Function.update l.position m.partition (m.offset + 1) }

def processBatchMessage (cfg : Config) (l : Loop) : Event → Loop
  | .stop => { l with running := false }
  | .tick =>
    if l.messageBuffer.length > 0 then
      { l with offsets := handleBatchMessage cfg l.offsets l.messageBuffer, messageBuffer := [] }
    else l
  | .fetchError .fatal => { l with running := false }
  | .fetchError .deadlineExceeded => { l with deadlineAttempt := nextAttempt l.deadlineAttempt }
  | .fetchError .other => { l with errorAttempt := nextAttempt l.errorAttempt }
  | .fetch m =>
    let l := { fetched l m with deadlineAttempt := 0, errorAttempt := 0, messageBuffer := l.messageBuffer ++ [m] }
    if (l.messageBuffer.length : ℤ) ≥ cfg.batchSize then
      { l with offsets := handleBatchMessage cfg l.offsets l.messageBuffer, messageBuffer := [] }
    else l

/-- single mode has no ticker and treats every error that is not fatal alike -/
def processSingleMessage (cfg : Config) (l : Loop) : Event → Loop
  | .stop => { l with running := false }
  | .tick => l
  | .fetchError .fatal => { l with running := false }
  | .fetchError _ => { l with errorAttempt := nextAttempt l.errorAttempt }
  | .fetch m => { fetched l m with errorAttempt := 0, offsets := (handleMessage cfg l.offsets m).2 }

def step (cfg : Config) (l : Loop) (e : Event) : Loop :=
  if l.running = false then l
  else if isBatchMode cfg then processBatchMessage cfg l e
  else processSingleMessage cfg l e

/-! ## Messages as items of the library -/

/-- decoding or handler failed, or the message was acknowledged, or neither -/
def outcome (cfg : Config) (m : Message) : Outcome :=
  if (cfg.binder = true ∧ m.decodes = false) ∨ m.handles = false then .failed
  else if cfg.autoAck = true ∧ m.commits = true then .acked
  else .left

def item (cfg : Config) (m : Message) : Item ℕ := ⟨m.partition, m.offset, outcome cfg m⟩

theorem handleMessage_eq (cfg : Config) (s : Marks ℕ) (m : Message) :
    (handleMessage cfg s m).2 = Watermark.step s (item cfg m) := by
  by_cases hd : cfg.binder ∧ m.decodes = false
  · simp [handleMessage, Watermark.step, item, outcome, hd]
  by_cases hh : m.handles = false
  · simp [handleMessage, Watermark.step, item, outcome, hh]
  by_cases ha : cfg.autoAck
  · cases hc : m.commits <;> simp [handleMessage, Watermark.step, item, outcome, commitMessages, hd, hh, ha, hc]
  · simp [handleMessage, Watermark.step, item, outcome, hd, hh, ha]

theorem handleBatchMessage_eq (cfg : Config) (s : Marks ℕ) (messages : List Message) :
    handleBatchMessage cfg s messages = run Watermark.step s (messages.map (item cfg)) := by
  induction messages generalizing s with
  | nil => rfl
  | cons m messages ih =>
    rw [List.map_cons, run_cons, ← handleMessage_eq, ← ih]
    rfl

def handled (cfg : Config) (l : Loop) (e : Event) : List Message :=
  if l.running = false then []
  else if isBatchMode cfg then
    match e with
    | .fetch m => if (l.messageBuffer.length + 1 : ℤ) ≥ cfg.batchSize then l.messageBuffer ++ [m] else []
    | .tick => l.messageBuffer
    | _ => []
  else
    match e with
    | .fetch m => [m]
    | _ => []

def fetches (l : Loop) : Event → List Message
  | .fetch m => if l.running = false then [] else [m]
  | _ => []

/-- everything an iteration does with messages: those of the buffer and the one it fetches are handled or buffered -/
structure Moves (cfg : Config) (l : Loop) (e : Event) : Prop where
  offsets : (step cfg l e).offsets = handleBatchMessage cfg l.offsets (handled cfg l e)
  sequence : l.messageBuffer ++ fetches l e = handled cfg l e ++ (step cfg l e).messageBuffer
  position : (step cfg l e).position = ((fetches l e).foldl fetched l).position

theorem moves_batch {cfg : Config} {l : Loop} (hrun : l.running ≠ false) (hmode : isBatchMode cfg) (e : Event) :
    Moves cfg l e := by
  have hstep : step cfg l e = processBatchMessage cfg l e := by simp [step, hrun, hmode]
  cases e with
  | stop => constructor <;> simp [hstep, processBatchMessage, handled, fetches, handleBatchMessage]
  | tick =>
    by_cases hempty : l.messageBuffer = []
    · constructor <;> simp [hstep, processBatchMessage, handled, fetches, handleBatchMessage, hempty]
    · have hflush : step cfg l .tick =
          { l with offsets := handleBatchMessage cfg l.offsets l.messageBuffer, messageBuffer := [] } := by
        rw [hstep, processBatchMessage, if_pos (List.length_pos_iff.2 hempty)]
      constructor <;> simp [hflush, handled, fetches, hrun, hmode]
  | fetchError err =>
    cases err <;> constructor <;> simp [hstep, processBatchMessage, handled, fetches, handleBatchMessage]
  | fetch m =>
    by_cases hfull : (l.messageBuffer.length + 1 : ℤ) ≥ cfg.batchSize
    · constructor <;> simp [hstep, processBatchMessage, handled, fetches, fetched, hrun, hmode, hfull]
    · constructor <;>
        simp [hstep, processBatchMessage, handled, fetches, fetched, handleBatchMessage, hrun, hmode, hfull]

theorem moves_single {cfg : Config} {l : Loop} (hrun : l.running ≠ false) (hmode : isBatchMode cfg = false)
    (hempty : l.messageBuffer = []) (e : Event) : Moves cfg l e := by
  have hstep : step cfg l e = processSingleMessage cfg l e := by simp [step, hrun, hmode]
  cases e with
  | stop | tick => constructor <;> simp [hstep, processSingleMessage, handled, fetches, handleBatchMessage, hmode]
  | fetchError err =>
    cases err <;> constructor <;> simp [hstep, processSingleMessage, handled, fetches, handleBatchMessage]
  | fetch m =>
    constructor <;>
      simp [hstep, processSingleMessage, handled, fetches, fetched, handleBatchMessage, hrun, hmode, hempty]

/-! ## At least once -/

/-- no message whose decoding or handler failed lies below the committed offset of its partition -/
def AtLeastOnce (l : Loop) : Prop := ∀ f ∈ l.offsets.failed, l.offsets.mark f.1 ≤ f.2

/-- the messages of a partition are fetched in increasing order of their offsets -/
def Increasing (l : Loop) : Event → Prop
  | .fetch m => l.position m.partition ≤ m.offset
  | _ => True

instance (l : Loop) : ∀ e, Decidable (Increasing l e)
  | .fetch m => inferInstanceAs (Decidable (l.position m.partition ≤ m.offset))
  | .fetchError _ => inferInstanceAs (Decidable True)
  | .tick => inferInstanceAs (Decidable True)
  | .stop => inferInstanceAs (Decidable True)

/-- no message the iteration handles is acknowledged when a message of its partition has failed before -/
def Orderly (cfg : Config) (l : Loop) (e : Event) : Prop :=
  Along Watermark.step (fun s i => i.outcome = .acked → ∀ f ∈ s.failed, f.1 ≠ i.key) l.offsets
    ((handled cfg l e).map (item cfg))

instance (cfg : Config) (l : Loop) (e : Event) : Decidable (Orderly cfg l e) := by unfold Orderly; infer_instance

/-- the buffer holds messages in order, none of them fetched past the reader's position -/
structure Inv (cfg : Config) (l : Loop) : Prop where
  inv : Watermark.Inv l.offsets
  safe : AtLeastOnce l
  single : isBatchMode cfg = false → l.messageBuffer = []
  buffered : Along Watermark.step InOrder l.offsets (l.messageBuffer.map (item cfg))
  position : ∀ p, (run Watermark.step l.offsets (l.messageBuffer.map (item cfg))).seen p ≤ l.position p

variable {cfg : Config} {l : Loop} {e : Event}

theorem moves (h : Inv cfg l) (e : Event) : Moves cfg l e := by
  by_cases hrun : l.running = false
  · cases e <;> constructor <;> simp [step, hrun, handled, fetches, handleBatchMessage]
  cases hmode : isBatchMode cfg with
  | true => exact moves_batch hrun hmode e
  | false => exact moves_single hrun hmode (h.single hmode) e

theorem step_offsets (h : Inv cfg l) (e : Event) :
    (step cfg l e).offsets = run Watermark.step l.offsets ((handled cfg l e).map (item cfg)) := by
  rw [(moves h e).offsets, handleBatchMessage_eq]

/-- what is in the buffer and what is fetched comes in order -/
theorem along_fetched (h : Inv cfg l) (ho : Increasing l e) :
    Along Watermark.step InOrder l.offsets ((l.messageBuffer ++ fetches l e).map (item cfg)) := by
  rw [List.map_append, along_append]
  refine ⟨h.buffered, ?_⟩
  cases e with
  | fetch m =>
    simp only [fetches]
    split_ifs
    · trivial
    · exact ⟨(h.position m.partition).trans ho, trivial⟩
  | fetchError | tick | stop => trivial

theorem seen_fetched (h : Inv cfg l) (e : Event) (p : ℕ) :
    (run Watermark.step l.offsets ((l.messageBuffer ++ fetches l e).map (item cfg))).seen p ≤
      ((fetches l e).foldl fetched l).position p := by
  rw [List.map_append, run_append]
  cases e with
  | fetch m =>
    simp only [fetches]
    split_ifs
    · exact h.position p
    · by_cases hp : p = m.partition
      · subst hp
        simp [Watermark.step, item, fetched]
      · simpa [Watermark.step, item, fetched, Function.update_of_ne hp] using h.position p
  | fetchError | tick | stop => exact h.position p

/-- first what is handled, then what is left in the buffer -/
theorem handled_inOrder (h : Inv cfg l) (ho : Increasing l e) :
    Along Watermark.step InOrder l.offsets ((handled cfg l e).map (item cfg)) ∧
      Along Watermark.step InOrder (step cfg l e).offsets ((step cfg l e).messageBuffer.map (item cfg)) := by
  have halong := along_fetched h ho
  rwa [(moves h e).sequence, List.map_append, along_append, ← step_offsets h] at halong

theorem atLeastOnce_step_iff (h : Inv cfg l) (ho : Increasing l e) : AtLeastOnce (step cfg l e) ↔ Orderly cfg l e := by
  have hsafe := safe_iff_clean h.inv h.safe (handled_inOrder h ho).1
  rw [← step_offsets h e] at hsafe
  exact hsafe

theorem inv_step (h : Inv cfg l) (ho : Increasing l e) (hc : Orderly cfg l e) : Inv cfg (step cfg l e) := by
  obtain ⟨hhandled, hbuffered⟩ := handled_inOrder h ho
  refine ⟨?_, (atLeastOnce_step_iff h ho).2 hc, fun hmode => ?_, hbuffered, fun p => ?_⟩
  · rw [step_offsets h e]
    exact inv_run h.inv hhandled
  · -- single mode handles what it fetches
    have hsequence := (moves h e).sequence
    have hall : handled cfg l e = fetches l e := by
      cases e <;> simp [handled, fetches, hmode]
    rw [hall, h.single hmode, List.nil_append] at hsequence
    exact List.self_eq_append_right.1 hsequence
  · have hseen := seen_fetched h e p
    rwa [(moves h e).sequence, List.map_append, run_append, ← step_offsets h, ← (moves h e).position] at hseen

theorem inv_start (cfg : Config) (committed : ℕ → ℕ) : Inv cfg (start cfg committed) := by
  refine ⟨⟨fun _ => le_rfl, ?_⟩, ?_, fun _ => rfl, trivial, fun _ => le_rfl⟩
  · intro f hf
    cases hf
  · intro f hf
    cases hf

/-- **A failed message is kept exactly while nothing after it is acknowledged.** In both modes, with AutoAck or without:
no failed message lies below the committed offset of its partition in any state reached, if and only if no message is
acknowledged after a failed one of its partition. -/
theorem atLeastOnce_iff (cfg : Config) (committed : ℕ → ℕ) (events : List Event)
    (ho : Along (step cfg) Increasing (start cfg committed) events) :
    Always (step cfg) AtLeastOnce (start cfg committed) events ↔
      Along (step cfg) (Orderly cfg) (start cfg committed) events := by
  refine always_iff_along (I := Inv cfg) (fun _ h => h.safe) ?_ ?_ (inv_start cfg committed) ho
  · intro l e h hi hc
    exact inv_step h hi hc
  · intro l e h hi hc hsafe
    exact hc ((atLeastOnce_step_iff h hi).1 hsafe)

def singleMode : Config := ⟨true, true, 0, 0⟩

def batchMode : Config := ⟨true, true, 2, 1000000000⟩

/-- the handler fails on the first message of partition 0 and succeeds on the second -/
def failThenSucceed : List Event := [.fetch ⟨0, 0, true, false, true⟩, .fetch ⟨0, 1, true, true, true⟩]

/-- the failed message is below the committed offset after the events -/
def Skipped (cfg : Config) : Prop :=
  Along (step cfg) Increasing (start cfg fun _ => 0) failThenSucceed ∧
    (run (step cfg) (start cfg fun _ => 0) failThenSucceed).offsets.failed = [(0, 0)] ∧
    (run (step cfg) (start cfg fun _ => 0) failThenSucceed).offsets.mark 0 = 2 ∧
    ¬ AtLeastOnce (run (step cfg) (start cfg fun _ => 0) failThenSucceed)

theorem skipped_of (cfg : Config) (ho : Along (step cfg) Increasing (start cfg fun _ => 0) failThenSucceed)
    (hfailed : (run (step cfg) (start cfg fun _ => 0) failThenSucceed).offsets.failed = [(0, 0)])
    (hmark : (run (step cfg) (start cfg fun _ => 0) failThenSucceed).offsets.mark 0 = 2) : Skipped cfg := by
  refine ⟨ho, hfailed, hmark, fun hsafe => ?_⟩
  have hle := hsafe (0, 0) (by simp [hfailed])
  rw [hmark] at hle
  exact absurd hle (by decide)

/-- **A failed message is skipped**, in single and in batch mode: the offset committed is 2, past the message at 0. -/
theorem failed_message_skipped : Skipped singleMode ∧ Skipped batchMode :=
  ⟨skipped_of singleMode (by decide) (by decide) (by decide), skipped_of batchMode (by decide) (by decide) (by decide)⟩

/-- a success before the failure, and a success in another partition after it -/
theorem failed_message_kept :
    Always (step singleMode) AtLeastOnce (start singleMode fun _ => 0)
      [.fetch ⟨0, 0, true, true, true⟩, .fetch ⟨0, 1, true, false, true⟩, .fetch ⟨1, 0, true, true, true⟩] :=
  (atLeastOnce_iff singleMode (fun _ => 0) _ (by decide)).2 (by decide)

end LuluExt.Kafka
