/-
Batches of the Kafka consumer: which messages are handed over, when, and for which options.

This is the loop of the consumer once more, with what its offsets do not show: the calls of `handleMessage` in their
order, the batches with the instants at which they were handed over, the ticker, and the panics. `make` and
`time.NewTicker` panic on values that the options let through, since batch mode is entered when either option is set.
The ticker's channel holds one firing: later ones are dropped until it is received. Instants are nanoseconds since the
ticker was made.
-/
import LuluExt.Broker.KafkaConsumer
import LuluExt.Lib.Go

namespace LuluExt.KafkaBatch

open Run Kafka

/-! ## Built-in operations that can panic -/

/-- `make([]kafkaGo.Message, 0, n)`: no capacity below zero, or above what the runtime can allocate -/
def makeBuffer (maxCap : ℕ) (n : ℤ) : Option (List Message) := if 0 ≤ n ∧ n ≤ maxCap then some [] else none

/-- `time.NewTicker(d)`, with the number of its first firing -/
def newTicker (d : ℤ) : Option ℕ := if 0 < d then some 1 else none

/-- nanoseconds -/
def defaultDeadlineMin : ℤ := 50000000

def defaultDeadlineMax : ℤ := 500000000

def defaultErrorMin : ℤ := 500000000

def defaultErrorMax : ℤ := 5000000000

/-- the delay that `backoffSleep` comes to, in 64 bits -/
def backoffDelay (attempt : ℕ) (min max : ℤ) : ℤ :=
  let min := if min ≤ 0 then 50000000 else min
  let max := if max < min then min else max
  let d := Go.wrap64 (min * 2 ^ attempt)
  let d := if d < min then min else d
  if d > max then max else d

/-- sleeps at most the delay; `Int63n` panics when its bound is not positive -/
def backoffSleep (attempt : ℕ) (min max : ℤ) : Option ℤ :=
  let d := backoffDelay attempt min max
  if 0 < d / 2 + 1 then some d else none

theorem backoffDelay_pos (attempt : ℕ) (min max : ℤ) : 0 < backoffDelay attempt min max := by
  unfold backoffDelay
  dsimp only
  split_ifs <;> omega

/-- whatever the limits and however many attempts, and though the shift can overflow -/
theorem backoffSleep_isSome (attempt : ℕ) (min max : ℤ) : (backoffSleep attempt min max).isSome := by
  have hpos := backoffDelay_pos attempt min max
  unfold backoffSleep
  rw [if_pos (by omega)]
  rfl

/-! ## The loop -/

/-- a batch that was handed over, when, and for which firing of the ticker if for one -/
structure Handover where
  batch : List Message
  now : ℕ
  firing : Option ℕ
deriving DecidableEq, Repr

structure Subscriber extends Loop where
  panicked : Bool
  /-- the number of the ticker's firing that is in its channel or will be -/
  next : ℕ
  fetches : List Message
  handles : List Message
  handed : List Handover

namespace Subscriber

def handleMessage (cfg : Config) (s : Subscriber) (m : Message) : Subscriber :=
  { s with offsets := (Kafka.handleMessage cfg s.offsets m).2, handles := s.handles ++ [m] }

def handleBatchMessage (cfg : Config) (s : Subscriber) (messages : List Message) : Subscriber :=
  messages.foldl (handleMessage cfg) s

def panic (s : Subscriber) : Subscriber := { s with panicked := true, running := false }

def backoff (s : Subscriber) (attempt : ℕ) (min max : ℤ) (next : Subscriber) : Subscriber :=
  match backoffSleep attempt min max with
  | some _ => next
  | none => s.panic

def handOver (maxCap : ℕ) (cfg : Config) (now : ℕ) (firing : Option ℕ) (s : Subscriber) : Subscriber :=
  let handed := s.handed ++ [⟨s.messageBuffer, now, firing⟩]
  let s := { s.handleBatchMessage cfg s.messageBuffer with handed := handed }
  match makeBuffer maxCap cfg.batchSize with
  | some messageBuffer => { s with messageBuffer := messageBuffer }
  | none => s.panic

def fetch (s : Subscriber) (m : Message) : Subscriber :=
  { s with position := (Kafka.fetched s.toLoop m).position, fetches := s.fetches ++ [m] }

def processBatchMessage (maxCap : ℕ) (cfg : Config) (s : Subscriber) (now : ℕ) : Event → Subscriber
  | .stop => { s with running := false }
  | .tick =>
    if s.next * cfg.batchInterval.toNat ≤ now then
      let firing := s.next
      let s := { s with next := now / cfg.batchInterval.toNat + 1 }
      if s.messageBuffer.length > 0 then s.handOver maxCap cfg now (some firing) else s
    else s
  | .fetchError .fatal => { s with running := false }
  | .fetchError .deadlineExceeded =>
    s.backoff s.deadlineAttempt defaultDeadlineMin defaultDeadlineMax
      { s with deadlineAttempt := nextAttempt s.deadlineAttempt }
  | .fetchError .other =>
    s.backoff s.errorAttempt defaultErrorMin defaultErrorMax { s with errorAttempt := nextAttempt s.errorAttempt }
  | .fetch m =>
    let s := { s.fetch m with deadlineAttempt := 0, errorAttempt := 0, messageBuffer := s.messageBuffer ++ [m] }
    if (s.messageBuffer.length : ℤ) ≥ cfg.batchSize then s.handOver maxCap cfg now none else s

def processSingleMessage (cfg : Config) (s : Subscriber) : Event → Subscriber
  | .stop => { s with running := false }
  | .tick => s
  | .fetchError .fatal => { s with running := false }
  | .fetchError _ =>
    s.backoff s.errorAttempt defaultErrorMin defaultErrorMax { s with errorAttempt := nextAttempt s.errorAttempt }
  | .fetch m => { s.fetch m with errorAttempt := 0 }.handleMessage cfg m

end Subscriber

abbrev Op := ℕ × Event

def step (maxCap : ℕ) (cfg : Config) (s : Subscriber) (op : Op) : Subscriber :=
  if s.running = false then s
  else if isBatchMode cfg then s.processBatchMessage maxCap cfg op.1 op.2
  else s.processSingleMessage cfg op.2

def entry (committed : ℕ → ℕ) : Subscriber where
  offsets := ⟨committed, committed, []⟩
  position := committed
  messageBuffer := []
  deadlineAttempt := 0
  errorAttempt := 0
  running := true
  panicked := false
  next := 1
  fetches := []
  handles := []
  handed := []

def start (maxCap : ℕ) (cfg : Config) (committed : ℕ → ℕ) : Subscriber :=
  if isBatchMode cfg then
    match makeBuffer maxCap cfg.batchSize with
    | none => (entry committed).panic
    | some messageBuffer =>
      match newTicker cfg.batchInterval with
      | none => (entry committed).panic
      | some next => { entry committed with messageBuffer := messageBuffer, next := next }
  else entry committed

/-- the subscription of `Subscribe`: an option that is absent leaves a zero -/
def subscribeConfig (binder autoAck : Bool) (batchSize batchInterval : Option ℤ) : Config :=
  ⟨binder, autoAck, batchSize.getD 0, batchInterval.getD 0⟩

/-! ## What an iteration does -/

section

variable {maxCap : ℕ} {cfg : Config} {s : Subscriber}

@[simp] theorem backoff_eq (s : Subscriber) (attempt : ℕ) (min max : ℤ) (next : Subscriber) :
    s.backoff attempt min max next = next := by
  obtain ⟨d, hd⟩ := Option.isSome_iff_exists.1 (backoffSleep_isSome attempt min max)
  simp only [Subscriber.backoff, hd]

theorem handleBatchMessage_eq (cfg : Config) (s : Subscriber) (messages : List Message) :
    s.handleBatchMessage cfg messages =
      { s with
        offsets := Kafka.handleBatchMessage cfg s.offsets messages
        handles := s.handles ++ messages } := by
  induction messages generalizing s with
  | nil => simp [Subscriber.handleBatchMessage, Kafka.handleBatchMessage]
  | cons m messages ih =>
    rw [Subscriber.handleBatchMessage, List.foldl_cons, ← Subscriber.handleBatchMessage, ih]
    simp [Subscriber.handleMessage, Kafka.handleBatchMessage]

theorem handOver_eq (hcap : makeBuffer maxCap cfg.batchSize = some []) (now : ℕ) (firing : Option ℕ) :
    s.handOver maxCap cfg now firing =
      { s with
        offsets := Kafka.handleBatchMessage cfg s.offsets s.messageBuffer
        messageBuffer := []
        handles := s.handles ++ s.messageBuffer
        handed := s.handed ++ [⟨s.messageBuffer, now, firing⟩] } := by
  simp only [Subscriber.handOver, hcap, handleBatchMessage_eq]

structure Record where
  messageBuffer : List Message
  panicked : Bool
  fetches : List Message
  handles : List Message
  handed : List Handover

def Subscriber.record (s : Subscriber) : Record := ⟨s.messageBuffer, s.panicked, s.fetches, s.handles, s.handed⟩

/-- everything an iteration does with messages: nothing, handle the one it fetches in single mode, and in batch mode
buffer it, hand over the buffer with it, or hand over the buffer at a firing of the ticker -/
inductive Turn (cfg : Config) (s : Subscriber) (now : ℕ) : Event → Record → Prop where
  | idle {e : Event} (hidle : s.running = false ∨ ∀ m, e ≠ .fetch m) : Turn cfg s now e s.record
  | single (m : Message) (hrun : s.running = true) (hmode : isBatchMode cfg = false) :
      Turn cfg s now (.fetch m) { s.record with fetches := s.fetches ++ [m], handles := s.handles ++ [m] }
  | buffered (m : Message) (hrun : s.running = true) (hroom : (s.messageBuffer.length + 1 : ℤ) < cfg.batchSize) :
      Turn cfg s now (.fetch m)
        { s.record with messageBuffer := s.messageBuffer ++ [m], fetches := s.fetches ++ [m] }
  | filled (m : Message) (hrun : s.running = true) (hmode : isBatchMode cfg = true)
      (hfull : cfg.batchSize ≤ (s.messageBuffer.length + 1 : ℤ)) :
      Turn cfg s now (.fetch m)
        { s.record with
          messageBuffer := []
          fetches := s.fetches ++ [m]
          handles := s.handles ++ (s.messageBuffer ++ [m])
          handed := s.handed ++ [⟨s.messageBuffer ++ [m], now, none⟩] }
  | fired (hrun : s.running = true) (hmode : isBatchMode cfg = true)
      (hfired : s.next * cfg.batchInterval.toNat ≤ now) :
      Turn cfg s now .tick
        { s.record with
          messageBuffer := []
          handles := s.handles ++ s.messageBuffer
          handed := s.handed ++ [⟨s.messageBuffer, now, some s.next⟩] }

theorem turn_batch (hcap : makeBuffer maxCap cfg.batchSize = some []) (hrun : s.running) (hmode : isBatchMode cfg)
    (now : ℕ) (e : Event) : Turn cfg s now e (s.processBatchMessage maxCap cfg now e).record := by
  cases e with
  | stop => exact .idle (.inr nofun)
  | tick =>
    simp only [Subscriber.processBatchMessage]
    split_ifs with hfired hlen
    · rw [handOver_eq hcap]
      exact .fired hrun hmode hfired
    · exact .idle (.inr nofun)
    · exact .idle (.inr nofun)
  | fetchError err => cases err <;> simp only [Subscriber.processBatchMessage, backoff_eq] <;> exact .idle (.inr nofun)
  | fetch m =>
    have hlen : ((s.messageBuffer ++ [m]).length : ℤ) = s.messageBuffer.length + 1 := by simp
    simp only [Subscriber.processBatchMessage, hlen]
    split_ifs with hfull
    · rw [handOver_eq hcap]
      exact .filled m hrun hmode hfull
    · exact .buffered m hrun (not_le.1 hfull)

theorem single_error {err : FetchError} (herr : err ≠ .fatal) :
    s.processSingleMessage cfg (.fetchError err) = { s with errorAttempt := nextAttempt s.errorAttempt } := by
  rw [Subscriber.processSingleMessage.eq_def]
  cases err with
  | fatal => exact absurd rfl herr
  | deadlineExceeded | other => exact backoff_eq ..

theorem turn_single (hrun : s.running) (hmode : isBatchMode cfg = false) (now : ℕ) (e : Event) :
    Turn cfg s now e (s.processSingleMessage cfg e).record := by
  cases e with
  | stop | tick => exact .idle (.inr nofun)
  | fetchError err =>
    cases err with
    | fatal => exact .idle (.inr nofun)
    | deadlineExceeded | other =>
      rw [single_error (by decide)]
      exact .idle (.inr nofun)
  | fetch m => exact .single m hrun hmode

/-- a firing is received only when it is due -/
def Possible (cfg : Config) (s : Subscriber) : Op → Prop
  | (now, .tick) => isBatchMode cfg = true → s.next * cfg.batchInterval.toNat ≤ now
  | _ => True

/-- **The same loop.** What the consumer's offsets, buffer and back-off counters are is what the loop of `KafkaConsumer`
makes of them. -/
theorem toLoop_step (hcap : s.running → isBatchMode cfg → makeBuffer maxCap cfg.batchSize = some []) {op : Op}
    (hop : Possible cfg s op) : (step maxCap cfg s op).toLoop = Kafka.step cfg s.toLoop op.2 := by
  obtain ⟨now, e⟩ := op
  cases hrun : s.running with
  | false => simp [step, Kafka.step, hrun]
  | true =>
    cases hmode : isBatchMode cfg with
    | true =>
      simp only [step, Kafka.step, hrun, hmode, if_true, Bool.true_eq_false, if_false]
      cases e with
      | stop => rfl
      | tick =>
        simp only [Subscriber.processBatchMessage, Kafka.processBatchMessage, if_pos (hop hmode)]
        split_ifs
        · rw [handOver_eq (hcap hrun hmode)]
        · rfl
      | fetchError err => cases err <;> simp [Subscriber.processBatchMessage, Kafka.processBatchMessage]
      | fetch m =>
        simp only [Subscriber.processBatchMessage, Kafka.processBatchMessage]
        split_ifs
        · rw [handOver_eq (hcap hrun hmode)]
          rfl
        · rfl
    | false =>
      simp only [step, Kafka.step, hrun, hmode]
      cases e with
      | stop | tick => rfl
      | fetchError err =>
        cases err with
        | fatal => rfl
        | deadlineExceeded | other =>
          rw [single_error (by decide)]
          rfl
      | fetch m => rfl

end

/-! ## Conservation -/

/-- nothing is lost, repeated or reordered, and the buffer is not full -/
structure Conserved (cfg : Config) (s : Subscriber) : Prop where
  sequence : s.handles ++ s.messageBuffer = s.fetches
  room : (s.messageBuffer.length : ℤ) < cfg.batchSize

/-- a loop that runs has got a buffer, and in batch mode a ticker -/
def Started (maxCap : ℕ) (cfg : Config) (s : Subscriber) : Prop :=
  s.running = true → isBatchMode cfg = true →
    makeBuffer maxCap cfg.batchSize = some [] ∧ 0 < cfg.batchInterval

section

variable {maxCap : ℕ} {cfg : Config} {s : Subscriber}

theorem started_step (h : Started maxCap cfg s) (op : Op) : Started maxCap cfg (step maxCap cfg s op) := by
  intro hrun hmode
  cases hs : s.running with
  | true => exact h hs hmode
  | false =>
    rw [step, if_pos hs, hs] at hrun
    cases hrun

/-- on entry to the batch loop both `make` and `NewTicker` may panic -/
theorem start_eq (maxCap : ℕ) (cfg : Config) (committed : ℕ → ℕ) :
    start maxCap cfg committed =
      if isBatchMode cfg = true ∧ ¬ ((0 ≤ cfg.batchSize ∧ cfg.batchSize ≤ maxCap) ∧ 0 < cfg.batchInterval) then
        (entry committed).panic
      else entry committed := by
  unfold start makeBuffer newTicker
  by_cases hmode : isBatchMode cfg
  · by_cases hcap : 0 ≤ cfg.batchSize ∧ cfg.batchSize ≤ maxCap <;> by_cases hpos : 0 < cfg.batchInterval <;>
      simp [hmode, hcap, hpos, entry]
  · simp [hmode]

theorem started_start (maxCap : ℕ) (cfg : Config) (committed : ℕ → ℕ) :
    Started maxCap cfg (start maxCap cfg committed) := by
  intro hrun hmode
  rw [start_eq] at hrun
  split_ifs at hrun with hstart
  · cases hrun
  · obtain ⟨hcap, hpos⟩ := not_not.1 fun h => hstart ⟨hmode, h⟩
    exact ⟨if_pos hcap, hpos⟩

theorem start_empty (maxCap : ℕ) (cfg : Config) (committed : ℕ → ℕ) :
    (start maxCap cfg committed).messageBuffer = [] ∧ (start maxCap cfg committed).handles = [] ∧
      (start maxCap cfg committed).fetches = [] ∧ (start maxCap cfg committed).handed = [] := by
  rw [start_eq]
  split_ifs <;> exact ⟨rfl, rfl, rfl, rfl⟩

theorem toLoop_start {maxCap : ℕ} {cfg : Config} (hsize : cfg.batchSize ≤ maxCap) (committed : ℕ → ℕ) :
    (start maxCap cfg committed).toLoop = Kafka.start cfg committed := by
  cases hmode : isBatchMode cfg with
  | false => simp [start, Kafka.start, hmode, entry]
  | true =>
    by_cases hmake : 0 ≤ cfg.batchSize
    · by_cases hticker : 0 < cfg.batchInterval <;>
        simp [start, Kafka.start, hmode, entry, makeBuffer, newTicker, hmake, hsize, hticker, Subscriber.panic]
    · simp [start, Kafka.start, hmode, entry, makeBuffer, hmake, Subscriber.panic]

/-- **Every run of this loop** is one of the loop of `KafkaConsumer`, when the buffer can be allocated and no firing is
received before it is due. -/
theorem toLoop_run {maxCap : ℕ} {cfg : Config} (hsize : cfg.batchSize ≤ maxCap) (committed : ℕ → ℕ) (ops : List Op)
    (hops : Along (step maxCap cfg) (Possible cfg) (start maxCap cfg committed) ops) :
    (run (step maxCap cfg) (start maxCap cfg committed) ops).toLoop =
      run (Kafka.step cfg) (Kafka.start cfg committed) (ops.map Prod.snd) := by
  rw [← toLoop_start hsize]
  have hstarted := started_start maxCap cfg committed
  generalize start maxCap cfg committed = s at hops hstarted
  induction ops generalizing s with
  | nil => rfl
  | cons op ops ih =>
    have hstep := toLoop_step (fun hrun hmode => (hstarted hrun hmode).1) hops.1
    rw [run_cons, ih _ hops.2 (started_step hstarted op), hstep, List.map_cons, run_cons]

theorem toLoop_ticked :
    (run (step 10 batchMode) (start 10 batchMode fun _ => 0)
      [(0, .fetch ⟨0, 0, true, true, true⟩), (1000000000, .tick)]).toLoop =
      run (Kafka.step batchMode) (Kafka.start batchMode fun _ => 0) [.fetch ⟨0, 0, true, true, true⟩, .tick] :=
  toLoop_run (by decide) _ _ ⟨trivial, fun _ => by decide, trivial⟩

theorem turn_step (h : Started maxCap cfg s) (op : Op) : Turn cfg s op.1 op.2 (step maxCap cfg s op).record := by
  cases hrun : s.running with
  | false =>
    rw [step, if_pos hrun]
    exact .idle (.inl hrun)
  | true =>
    simp only [step, hrun, Bool.true_eq_false, if_false]
    split_ifs with hmode
    · exact turn_batch (h hrun hmode).1 hrun hmode op.1 op.2
    · exact turn_single hrun (Bool.eq_false_of_not_eq_true hmode) op.1 op.2

theorem conserved_turn (hsize : 0 < cfg.batchSize) (h : Conserved cfg s) {now : ℕ} {e : Event} {r : Record}
    (hturn : Turn cfg s now e r) :
    r.handles ++ r.messageBuffer = r.fetches ∧ (r.messageBuffer.length : ℤ) < cfg.batchSize := by
  have hseq := h.sequence
  cases hturn with
  | idle => exact ⟨hseq, h.room⟩
  | single m _ hmode => simp [isBatchMode, hsize] at hmode
  | buffered m _ hlt => exact ⟨by simp [Subscriber.record, ← hseq], by simpa using hlt⟩
  | filled m => exact ⟨by simp [← hseq], by simpa using hsize⟩
  | fired => exact ⟨by simp [Subscriber.record, ← hseq], by simpa using hsize⟩

theorem conserved_step (hsize : 0 < cfg.batchSize) (hs : Started maxCap cfg s) (h : Conserved cfg s) (op : Op) :
    Conserved cfg (step maxCap cfg s op) := by
  obtain ⟨hseq, hroom⟩ := conserved_turn hsize h (turn_step hs op)
  exact ⟨hseq, hroom⟩

/-- the messages of the fetches that the loop takes while it runs -/
def taken (maxCap : ℕ) (cfg : Config) : Subscriber → List Op → List Message
  | _, [] => []
  | s, op :: ops =>
    match s.running, op.2 with
    | true, .fetch m => m :: taken maxCap cfg (step maxCap cfg s op) ops
    | _, _ => taken maxCap cfg (step maxCap cfg s op) ops

/-- a message is entered in the books when the loop that runs fetches it, in both modes, and at no other time -/
theorem fetches_turn {now : ℕ} {e : Event} {r : Record} (hturn : Turn cfg s now e r) :
    r.fetches = s.fetches ++ taken maxCap cfg s [(now, e)] := by
  cases hturn with
  | idle hidle =>
    obtain hrun | hfetch := hidle
    · simp [taken, hrun, Subscriber.record]
    · cases e with
      | fetch m => exact absurd rfl (hfetch m)
      | fetchError | tick | stop => simp [taken, Subscriber.record]
  | fired => simp [taken, Subscriber.record]
  | single m hrun | buffered m hrun | filled m hrun => simp [taken, hrun]

theorem taken_cons (op : Op) (ops : List Op) :
    taken maxCap cfg s (op :: ops) = taken maxCap cfg s [op] ++ taken maxCap cfg (step maxCap cfg s op) ops := by
  simp only [taken]
  split <;> rfl

theorem fetches_run (h : Started maxCap cfg s) (ops : List Op) :
    (run (step maxCap cfg) s ops).fetches = s.fetches ++ taken maxCap cfg s ops := by
  induction ops generalizing s with
  | nil => simp [taken]
  | cons op ops ih =>
    have hfetches : (step maxCap cfg s op).fetches = s.fetches ++ taken maxCap cfg s [op] :=
      fetches_turn (turn_step h op)
    rw [run_cons, ih (started_step h op), hfetches, taken_cons op ops, List.append_assoc]

/-- **Conservation.** At every top of the loop, whatever the errors, ticks and handlers: the messages passed to
`handleMessage` and then the buffer are the messages fetched, each once and in order, and the buffer holds fewer than
the batch size. The messages fetched are those of the fetches that the loop has taken while it ran. -/
theorem conservation (maxCap : ℕ) (cfg : Config) (hsize : 0 < cfg.batchSize) (committed : ℕ → ℕ) (ops : List Op) :
    Always (step maxCap cfg) (Conserved cfg) (start maxCap cfg committed) ops ∧
      (run (step maxCap cfg) (start maxCap cfg committed) ops).fetches =
        taken maxCap cfg (start maxCap cfg committed) ops := by
  obtain ⟨hbuffer, hhandles, hfetches, -⟩ := start_empty maxCap cfg committed
  refine ⟨?_, by rw [fetches_run (started_start maxCap cfg committed), hfetches, List.nil_append]⟩
  have hstart : Conserved cfg (start maxCap cfg committed) :=
    ⟨by rw [hbuffer, hhandles, hfetches]; rfl, by simpa [hbuffer] using hsize⟩
  refine always_of_along (I := fun s => Started maxCap cfg s ∧ Conserved cfg s) (C := fun _ _ => True)
    (fun _ h => h.2) ?_ ⟨started_start maxCap cfg committed, hstart⟩ (along_true ops)
  intro s op h _
  exact ⟨started_step h.1 op, conserved_step hsize h.1 h.2 op⟩

end

/-- batches of two, every second: three messages and a tick -/
def threeOps : List Op :=
  [(0, .fetch ⟨0, 0, true, true, true⟩), (1, .fetch ⟨0, 1, true, false, true⟩), (2, .fetchError .other),
    (3, .fetch ⟨0, 2, true, true, true⟩), (1000000000, .tick)]

theorem conservation_three :
    Always (step 10 batchMode) (Conserved batchMode) (start 10 batchMode fun _ => 0) threeOps ∧
      (run (step 10 batchMode) (start 10 batchMode fun _ => 0) threeOps).fetches =
        [⟨0, 0, true, true, true⟩, ⟨0, 1, true, false, true⟩, ⟨0, 2, true, true, true⟩] := by
  obtain ⟨hconserved, hfetches⟩ := conservation 10 batchMode (by decide) (fun _ => 0) threeOps
  exact ⟨hconserved, hfetches.trans (by decide +kernel)⟩

/-! ## Options -/

/-- a positive size was reached, or the positive interval that ends with the firing has elapsed -/
def Handover.Due (cfg : Config) (h : Handover) : Prop :=
  (0 < cfg.batchSize ∧ cfg.batchSize ≤ h.batch.length) ∨
    ∃ k, h.firing = some k ∧ 0 < cfg.batchInterval ∧ k * cfg.batchInterval.toNat ≤ h.now

structure Sound (cfg : Config) (s : Subscriber) : Prop where
  running : s.panicked = false
  due : ∀ h ∈ s.handed, h.Due cfg

/-- neither option is set, or both are, to a size that can be allocated -/
def Sensible (maxCap : ℕ) (cfg : Config) : Prop :=
  (cfg.batchSize ≤ 0 ∧ cfg.batchInterval ≤ 0) ∨
    (0 < cfg.batchSize ∧ cfg.batchSize ≤ maxCap ∧ 0 < cfg.batchInterval)

section

variable {maxCap : ℕ} {cfg : Config} {s : Subscriber}

theorem isBatchMode_iff : isBatchMode cfg ↔ 0 < cfg.batchSize ∨ 0 < cfg.batchInterval := by simp [isBatchMode]

theorem start_batch (hmode : isBatchMode cfg) (committed : ℕ → ℕ) :
    (start maxCap cfg committed).panicked = false ↔
      0 ≤ cfg.batchSize ∧ cfg.batchSize ≤ maxCap ∧ 0 < cfg.batchInterval := by
  rw [start_eq, ← and_assoc]
  split_ifs with hstart
  · exact iff_of_false (by simp [Subscriber.panic]) hstart.2
  · exact iff_of_true rfl (not_not.1 fun h => hstart ⟨hmode, h⟩)

theorem sound_step (hsize : isBatchMode cfg → 0 < cfg.batchSize) (hs : Started maxCap cfg s) (h : Sound cfg s)
    (op : Op) : Sound cfg (step maxCap cfg s op) := by
  have hnew : ∀ x : Handover, x.Due cfg → ∀ y ∈ s.handed ++ [x], y.Due cfg := by
    intro x hx y hy
    rcases List.mem_append.1 hy with hy | hy
    · exact h.due y hy
    · exact List.mem_singleton.1 hy ▸ hx
  suffices hrecord : ∀ r, Turn cfg s op.1 op.2 r → r.panicked = false ∧ ∀ x ∈ r.handed, x.Due cfg by
    obtain ⟨hpanic, hdue⟩ := hrecord _ (turn_step hs op)
    exact ⟨hpanic, hdue⟩
  intro r hturn
  generalize op.2 = e at hturn
  cases hturn with
  | idle | single | buffered => exact ⟨h.running, h.due⟩
  | filled m _ hmode hfull => exact ⟨h.running, hnew _ (.inl ⟨hsize hmode, by simpa using hfull⟩)⟩
  | fired hrun hmode hfired => exact ⟨h.running, hnew _ (.inr ⟨s.next, rfl, (hs hrun hmode).2, hfired⟩)⟩

theorem not_sound_of_zero (hsize : cfg.batchSize = 0) (hinterval : 0 < cfg.batchInterval) (committed : ℕ → ℕ)
    (m : Message) : ¬ Sound cfg (step maxCap cfg (start maxCap cfg committed) (0, .fetch m)) := by
  have hmode : isBatchMode cfg := isBatchMode_iff.2 (.inr hinterval)
  have hcap : makeBuffer maxCap cfg.batchSize = some [] := by simp [makeBuffer, hsize]
  have hstart : start maxCap cfg committed = entry committed := by simp [start_eq, hsize, hinterval]
  have hhanded : (step maxCap cfg (start maxCap cfg committed) (0, .fetch m)).handed = [⟨[m], 0, none⟩] := by
    rw [hstart]
    simp [step, entry, hmode, Subscriber.processBatchMessage, Subscriber.fetch, hsize, handOver_eq hcap]
  intro h
  rcases h.due ⟨[m], 0, none⟩ (by simp [hhanded]) with ⟨hpos, -⟩ | ⟨k, hk, -⟩
  · omega
  · cases hk

end

/-- **Batch options.** The loop that `run` chooses never panics and hands over a batch only when it has reached a
positive size or a positive interval has elapsed, in all runs, if and only if neither option is positive, or both are
and a buffer of the size can be allocated. -/
theorem options_iff (maxCap : ℕ) (binder autoAck : Bool) (batchSize batchInterval : Option ℤ) (committed : ℕ → ℕ) :
    (∀ ops, Always (step maxCap (subscribeConfig binder autoAck batchSize batchInterval))
        (Sound (subscribeConfig binder autoAck batchSize batchInterval))
        (start maxCap (subscribeConfig binder autoAck batchSize batchInterval) committed) ops) ↔
      Sensible maxCap (subscribeConfig binder autoAck batchSize batchInterval) := by
  generalize subscribeConfig binder autoAck batchSize batchInterval = cfg
  constructor
  · intro h
    by_cases hmode : isBatchMode cfg
    · obtain ⟨hnonneg, hcap, hinterval⟩ := (start_batch hmode committed).1 (h []).running
      rcases hnonneg.eq_or_lt with hzero | hpos
      · -- every message is a batch of its own
        have hsound := (h [(0, .fetch ⟨0, 0, true, true, true⟩)]).last
        exact absurd hsound (not_sound_of_zero hzero.symm hinterval committed _)
      · exact .inr ⟨hpos, hcap, hinterval⟩
    · rw [isBatchMode_iff, not_or] at hmode
      exact .inl ⟨not_lt.1 hmode.1, not_lt.1 hmode.2⟩
  · intro h ops
    have hsize : isBatchMode cfg → 0 < cfg.batchSize ∧ cfg.batchSize ≤ maxCap ∧ 0 < cfg.batchInterval := by
      intro hmode
      refine h.resolve_left fun hnone => ?_
      rcases isBatchMode_iff.1 hmode with hpos | hpos
      · exact absurd hpos (not_lt.2 hnone.1)
      · exact absurd hpos (not_lt.2 hnone.2)
    have hpanic : (start maxCap cfg committed).panicked = false := by
      by_cases hmode : isBatchMode cfg
      · obtain ⟨hpos, hcap, hinterval⟩ := hsize hmode
        exact (start_batch hmode committed).2 ⟨hpos.le, hcap, hinterval⟩
      · simp [start, hmode, entry]
    have hstart : Sound cfg (start maxCap cfg committed) := ⟨hpanic, by simp [start_empty]⟩
    refine always_of_along (I := fun s => Started maxCap cfg s ∧ Sound cfg s) (C := fun _ _ => True)
      (fun _ h => h.2) ?_ ⟨started_start maxCap cfg committed, hstart⟩ (along_true ops)
    intro s op hs _
    exact ⟨started_step hs.1 op, sound_step (fun hmode => (hsize hmode).1) hs.1 hs.2 op⟩

/-- **One option alone.** With a size of ten and no interval the loop panics on entry; with an interval of a second and
no size, a message is handed over alone as soon as it is fetched. -/
theorem half_set :
    (start 1000 (subscribeConfig true true (some 10) none) fun _ => 0).panicked = true ∧
    (run (step 1000 (subscribeConfig true true none (some 1000000000)))
        (start 1000 (subscribeConfig true true none (some 1000000000)) fun _ => 0)
        [(5, .fetch ⟨0, 0, true, true, true⟩)]).handed = [⟨[⟨0, 0, true, true, true⟩], 5, none⟩] := by
  decide

end LuluExt.KafkaBatch
