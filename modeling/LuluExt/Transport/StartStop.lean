/-
`Start` and `Stop` of the asynq and the cron server, which share one mutex.

`Start` takes the mutex, starts the server and waits for its context to be cancelled with the mutex in hand; it is
released by a `defer` when `Start` returns. `Stop` takes the same mutex first. So as long as `Start` waits and nobody
cancels its context, `Stop` does not get any further.

Both are programs over the shared state of the server, run by any number of goroutines. The calls of the libraries
(creation, start, shutdown, close) return; what they return is an answer of the environment.
-/
import LuluExt.Lib.Mutex
import LuluExt.Transport.Asynq

namespace LuluExt.StartStop

open Run Mutex

inductive Call where
  | start
  | stop
deriving DecidableEq, Repr

structure Answer where
  err : Option GoError
  /-- what `Unregister` returns for each entry -/
  unregister : String → Option GoError

instance : Nonempty Answer := ⟨⟨none, fun _ => none⟩⟩

variable (c : Call)

namespace Asynq

open LuluExt.Asynq (Tasks createAsynqScheduler removeAllPeriodicTask)

/-! ## The asynq server -/

structure Server where
  started : Bool
  serverEnabled : Bool
  /-- the consumer, when there is one, and whether it runs -/
  server : Option Bool
  scheduling : Bool
  client : Bool
  inspector : Bool
  tasks : Tasks

abbrev Prog := Mutex.Prog Server Answer (Option GoError)

def createAsynqServer (a : Answer) (s : Server) : Option GoError × Server :=
  if s.serverEnabled = false ∨ s.server ≠ none then (none, s)
  else if a.err = none then (none, { s with server := some false })
  else (some ⟨"create asynq server failed"⟩, s)

def createScheduler (a : Answer) (s : Server) : Option GoError × Server :=
  ((createAsynqScheduler a.err.isNone s.tasks).1,
    { s with tasks := (createAsynqScheduler a.err.isNone s.tasks).2 })

/-- `started` is set, and unset when the scheduler does not start -/
def startScheduler (a : Answer) (s : Server) : Option GoError × Server :=
  if s.tasks.schedulerEnabled = true ∧ s.tasks.scheduler ≠ none then
    match a.err with
    | some err => (some ⟨"asynq scheduler start failed: " ++ err.text⟩, { s with started := false })
    | none => (none, { s with started := true, scheduling := true })
  else (none, { s with started := true })

def runServer (s : Server) : Server :=
  if s.serverEnabled = true then { s with server := s.server.map fun _ => true } else s

def shutdownScheduler (s : Server) : Server := if s.tasks.scheduler ≠ none then { s with scheduling := false } else s

/-- `Shutdown`, or `Stop` when the shutdown is not graceful or takes longer than its context allows -/
def shutdownServer (s : Server) : Server := { s with server := s.server.map fun _ => false }

/-- the error of the inspector takes the place of that of the client -/
def stopInternal (k : Option GoError → Prog) : Prog :=
  .act (fun a s => { s with tasks := removeAllPeriodicTask a.unregister s.tasks }) fun _ _ =>
  .act (fun _ s => shutdownScheduler s) fun _ _ =>
  .act (fun _ s => shutdownServer s) fun _ _ =>
  .perform (fun a s => (if s.client = true then a.err else none, s)) fun clientErr =>
  .perform (fun a s => (if s.inspector = true then a.err else none, s)) fun inspectorErr =>
  k (inspectorErr <|> clientErr)

def finish : Prog :=
  .act (fun _ s => { s with started := false }) fun _ _ => stopInternal fun err => .unlock (.done err)

def start : Prog :=
  .lock <|
  .perform (fun _ s => (s.started, s)) fun started =>
  if started = true then .unlock (.done none)
  else
    .orReturn createAsynqServer <|
    .orReturn createScheduler <|
    .orReturn startScheduler <|
    .act (fun _ s => runServer s) fun _ _ =>
    .await finish

def stop : Prog :=
  .lock <|
  .perform (fun _ s => (s.started, s)) fun started =>
  if started = false then stopInternal fun err => .unlock (.done err)
  else .act (fun _ s => { s with started := false }) fun _ _ => stopInternal fun err => .unlock (.done err)

def prog : Call → Prog
  | .start => start
  | .stop => stop

def Stopped (s : Server) : Prop :=
  s.started = false ∧ (s.tasks.scheduler ≠ none → s.scheduling = false) ∧ s.server ≠ some true

theorem balanced_stopInternal {k : Option GoError → Prog} (hk : ∀ err, (k err).Balanced true) :
    (stopInternal k).Balanced true :=
  ⟨rfl, fun _ _ => ⟨rfl, fun _ _ => ⟨rfl, fun _ _ => ⟨rfl, fun _ _ => ⟨rfl, fun _ _ => hk _⟩⟩⟩⟩⟩

theorem balanced_finish : finish.Balanced true :=
  ⟨rfl, fun _ _ => balanced_stopInternal fun _ => ⟨rfl, rfl⟩⟩

theorem balanced_prog : (prog c).Balanced false := by
  cases c with
  | start =>
    refine ⟨rfl, rfl, fun e s => ?_⟩
    dsimp only
    split_ifs
    · exact ⟨rfl, rfl⟩
    · exact balanced_orReturn (balanced_orReturn (balanced_orReturn ⟨rfl, fun _ _ => ⟨rfl, balanced_finish⟩⟩))
  | stop =>
    refine ⟨rfl, rfl, fun e s => ?_⟩
    dsimp only
    split_ifs
    · exact balanced_stopInternal fun _ => ⟨rfl, rfl⟩
    · exact ⟨rfl, fun _ _ => balanced_stopInternal fun _ => ⟨rfl, rfl⟩⟩

theorem stopped_shutdown {s : Server} (hs : s.started = false) : Stopped (shutdownServer (shutdownScheduler s)) := by
  unfold shutdownScheduler shutdownServer Stopped
  split_ifs with hsched
  · exact ⟨hs, fun _ => rfl, by cases s.server <;> simp⟩
  · exact ⟨hs, fun h => absurd h hsched, by cases s.server <;> simp⟩

theorem finishes_stopInternal {s : Server} (hs : s.started = false) :
    (stopInternal fun err => .unlock (.done err)).Finishes (fun _ s => Stopped s) s := by
  intro a _ _ _ _
  exact stopped_shutdown (s := { s with tasks := removeAllPeriodicTask a.unregister s.tasks }) hs

theorem finishes_stop : ∃ k, stop = .lock k ∧ ∀ s, k.Finishes (fun _ s => Stopped s) s := by
  refine ⟨_, rfl, fun s e => ?_⟩
  dsimp only
  split_ifs with hstarted
  · exact finishes_stopInternal hstarted
  · exact fun _ => finishes_stopInternal rfl

end Asynq

namespace Cron

/-! ## The cron server -/

structure Server where
  started : Bool
  stopping : Bool
  running : Bool
deriving DecidableEq, Repr

abbrev Prog := Mutex.Prog Server Answer (Option GoError)

/-- the jobs that run are waited for, or the context of the shutdown is done first -/
def stopInternal (k : Prog) : Prog :=
  .perform (fun _ s => (s.stopping, s)) fun stopping =>
  if stopping = true then k
  else
    .act (fun _ s => { s with stopping := true }) fun _ _ =>
    .act (fun _ s => { s with running := false }) fun _ _ =>
    .act (fun _ s => { s with stopping := false }) fun _ _ =>
    k

/-- what `Start` does once its context is cancelled -/
def finish : Prog := .act (fun _ s => { s with started := false }) fun _ _ => stopInternal (.unlock (.done none))

def start : Prog :=
  .lock <|
  .perform (fun _ s => (s.started, s)) fun started =>
  if started = true then .unlock (.done none)
  else
    .act (fun _ s => { s with running := true }) fun _ _ =>
    .act (fun _ s => { s with started := true }) fun _ _ =>
    .await finish

def stop : Prog :=
  .lock <|
  .perform (fun _ s => (s.started, s)) fun started =>
  .perform (fun _ s => (s.stopping, s)) fun stopping =>
  if started = false ∧ stopping = false then stopInternal (.unlock (.done none))
  else .act (fun _ s => { s with started := false }) fun _ _ => stopInternal (.unlock (.done none))

def prog : Call → Prog
  | .start => start
  | .stop => stop

def Stopped (s : Server) : Prop := s.started = false ∧ s.running = false

def newServer : Server := ⟨false, false, false⟩

/-- nobody is in `stopInternal` while the mutex is free -/
def Settled (s : Server) : Prop := s.stopping = false

theorem balanced_stopInternal : (stopInternal (.unlock (.done none))).Balanced true := by
  refine ⟨rfl, fun e s => ?_⟩
  dsimp only
  split_ifs
  · exact ⟨rfl, rfl⟩
  · exact ⟨rfl, fun _ _ => ⟨rfl, fun _ _ => ⟨rfl, fun _ _ => ⟨rfl, rfl⟩⟩⟩⟩

theorem balanced_prog : (prog c).Balanced false := by
  cases c with
  | start =>
    refine ⟨rfl, rfl, fun e s => ?_⟩
    dsimp only
    split_ifs
    · exact ⟨rfl, rfl⟩
    · exact ⟨rfl, fun _ _ => ⟨rfl, fun _ _ => ⟨rfl, rfl, fun _ _ => balanced_stopInternal⟩⟩⟩
  | stop =>
    refine ⟨rfl, rfl, fun e s => ⟨rfl, fun e' s' => ?_⟩⟩
    dsimp only
    split_ifs
    · exact balanced_stopInternal
    · exact ⟨rfl, fun _ _ => balanced_stopInternal⟩

theorem finishes_stopInternal {s : Server} (hs : s.started = false) (hstopping : Settled s) :
    (stopInternal (.unlock (.done none))).Finishes (fun _ s => Stopped s) s := by
  intro e
  dsimp only
  rw [if_neg (by rw [hstopping]; simp)]
  exact fun _ _ _ => ⟨hs, rfl⟩

theorem keeps_stopInternal {s : Server} (hstopping : Settled s) :
    (stopInternal (.unlock (.done none))).Keeps Settled s := by
  intro e
  dsimp only
  rw [if_neg (by rw [hstopping]; simp)]
  exact fun _ _ _ => ⟨rfl, fun _ => trivial⟩

theorem keeps_prog (s : Server) : (prog c).Keeps Settled s := by
  cases c with
  | start =>
    intro s hs e
    dsimp only
    split_ifs
    · exact ⟨hs, fun _ => trivial⟩
    · exact fun _ _ _ => keeps_stopInternal hs
  | stop =>
    intro s hs e e'
    dsimp only
    split_ifs
    · exact keeps_stopInternal hs
    · exact fun _ => keeps_stopInternal hs

theorem finishes_stop : ∃ k, stop = .lock k ∧ ∀ s, Settled s → k.Finishes (fun _ s => Stopped s) s := by
  refine ⟨_, rfl, fun s hs e e' => ?_⟩
  dsimp only
  split_ifs with h
  · exact finishes_stopInternal h.1 hs
  · exact fun _ => finishes_stopInternal rfl hs

end Cron

/-! ## Stop -/

section Stop

variable {ι σ : Type} [DecidableEq ι] {prog : Call → Mutex.Prog σ Answer (Option GoError)} {stopped : σ → Prop}

def uncalled (server : σ) : Mutex.State ι σ Answer (Option GoError) :=
  ⟨server, none, fun _ => .done none, fun _ => false⟩

def reached (prog : Call → Mutex.Prog σ Answer (Option GoError)) (server : σ) (ops : List (Op ι Call Answer)) :
    Mutex.State ι σ Answer (Option GoError) := run (step prog) (uncalled server) ops

/-- a call can return: there is a way on, without a context being cancelled, that ends with its return and a server that
is stopped -/
def CanReturn (prog : Call → Mutex.Prog σ Answer (Option GoError)) (stopped : σ → Prop)
    (s : Mutex.State ι σ Answer (Option GoError)) (i : ι) : Prop :=
  ∃ ops : List (Op ι Call Answer), (∀ op ∈ ops, ¬ op.IsCancel) ∧
    ∃ r, (run (step prog) s ops).code i = .done r ∧ stopped (run (step prog) s ops).shared

/-- the call that has the mutex, if there is one, can release it -/
def Releasable (s : Mutex.State ι σ Answer (Option GoError)) : Prop :=
  ∀ j, s.holder = some j → (s.code j).CanRelease (s.cancelled j) s.shared

theorem exclusive_reached (hbal : ∀ c, (prog c).Balanced false) (server : σ) (ops : List (Op ι Call Answer)) :
    Exclusive (reached prog server ops) := by
  have hfresh : Exclusive (uncalled server : Mutex.State ι σ Answer (Option GoError)) := fun _ => rfl
  exact exclusive_run hbal hfresh ops

theorem canReturn_iff {I : σ → Prop} (hbal : ∀ c, (prog c).Balanced false) (hkeeps : ∀ c s, (prog c).Keeps I s)
    (hstop : ∃ k, prog .stop = .lock k ∧ ∀ s, I s → k.Finishes (fun _ s => stopped s) s) {server : σ} (hI : I server)
    (ops : List (Op ι Call Answer)) {i : ι} (hi : (reached prog server ops).code i = prog .stop) :
    CanReturn prog stopped (reached prog server ops) i ↔ Releasable (reached prog server ops) := by
  obtain ⟨k, hk, hfin⟩ := hstop
  have hfresh : Guarded I (uncalled server : Mutex.State ι σ Answer (Option GoError)) :=
    ⟨fun _ => hI, fun _ => trivial⟩
  have hguard : Guarded I (reached prog server ops) :=
    guarded_run hbal hkeeps (exclusive_reached hbal server []) hfresh ops
  exact returns_iff hbal hkeeps (exclusive_reached hbal server ops) hguard (hi.trans hk) hfin

theorem waiting_iff (hbal : ∀ c, (prog c).Balanced false) (server : σ) (ops : List (Op ι Call Answer)) {i : ι}
    {k : Mutex.Prog σ Answer (Option GoError)}
    (hi : (reached prog server ops).code i = .await k) :
    (reached prog server ops).holder = some i ∧
      (Releasable (reached prog server ops) ↔ (reached prog server ops).cancelled i) := by
  obtain ⟨hholder, hcan⟩ := canRelease_await (exclusive_reached hbal server ops) hi
  refine ⟨hholder, fun h => hcan.1 (h i hholder), fun hcancelled j hj => ?_⟩
  obtain rfl : i = j := Option.some.inj (hholder.symm.trans hj)
  exact hcan.2 hcancelled

theorem canReturn_asynq_iff (server : Asynq.Server) (ops : List (Op ι Call Answer)) {i : ι}
    (hi : (reached Asynq.prog server ops).code i = Asynq.stop) :
    CanReturn Asynq.prog Asynq.Stopped (reached Asynq.prog server ops) i ↔
      Releasable (reached Asynq.prog server ops) := by
  obtain ⟨k, hk, hfin⟩ := Asynq.finishes_stop
  exact canReturn_iff (I := fun _ => True) Asynq.balanced_prog (fun c => keeps_trivial _)
    ⟨k, hk, fun s _ => hfin s⟩ trivial ops hi

theorem canReturn_cron_iff (ops : List (Op ι Call Answer)) {i : ι}
    (hi : (reached Cron.prog Cron.newServer ops).code i = Cron.stop) :
    CanReturn Cron.prog Cron.Stopped (reached Cron.prog Cron.newServer ops) i ↔
      Releasable (reached Cron.prog Cron.newServer ops) := by
  have hsettled : Cron.Settled Cron.newServer := rfl
  exact canReturn_iff Cron.balanced_prog Cron.keeps_prog Cron.finishes_stop hsettled ops hi

/-- **Stop beside Start.** In every state that can be reached: a `Stop` that has been called can return without a
context being cancelled, and then the server is stopped, if and only if the call that has the mutex can release it. A
call that waits for its context has the mutex, and can release it if and only if the context is cancelled. -/
theorem stop_returns_iff :
    (∀ (server : Asynq.Server) (ops : List (Op ι Call Answer)) (i : ι),
      ((reached Asynq.prog server ops).code i = Asynq.stop →
        (CanReturn Asynq.prog Asynq.Stopped (reached Asynq.prog server ops) i ↔
          Releasable (reached Asynq.prog server ops))) ∧
      ∀ k, (reached Asynq.prog server ops).code i = .await k →
        (reached Asynq.prog server ops).holder = some i ∧
          (Releasable (reached Asynq.prog server ops) ↔ (reached Asynq.prog server ops).cancelled i = true)) ∧
    (∀ (ops : List (Op ι Call Answer)) (i : ι),
      ((reached Cron.prog Cron.newServer ops).code i = Cron.stop →
        (CanReturn Cron.prog Cron.Stopped (reached Cron.prog Cron.newServer ops) i ↔
          Releasable (reached Cron.prog Cron.newServer ops))) ∧
      ∀ k, (reached Cron.prog Cron.newServer ops).code i = .await k →
        (reached Cron.prog Cron.newServer ops).holder = some i ∧
          (Releasable (reached Cron.prog Cron.newServer ops) ↔
            (reached Cron.prog Cron.newServer ops).cancelled i = true)) := by
  constructor
  · intro server ops i
    exact ⟨canReturn_asynq_iff server ops, fun k => waiting_iff Asynq.balanced_prog server ops⟩
  · intro ops i
    exact ⟨canReturn_cron_iff ops, fun k => waiting_iff Cron.balanced_prog _ ops⟩

end Stop

def fine : Answer := ⟨none, fun _ => none⟩

def Asynq.idleServer : Asynq.Server := ⟨false, true, some false, false, true, false, ⟨true, some [], ∅⟩⟩

/-- the first goroutine has called `Start` and gone as many steps, the second one has called `Stop` -/
def beside (n : ℕ) : List (Op ℕ Call Answer) :=
  .call 0 .start :: (List.replicate n (.step 0 fine) ++ [.call 1 .stop])

/-- `Start` waits for its context, `Stop` for the mutex, and the context is cancelled -/
theorem stop_returns_cancelled :
    CanReturn Asynq.prog Asynq.Stopped (reached Asynq.prog Asynq.idleServer (beside 6 ++ [.cancel 0])) 1 ∧
    CanReturn Cron.prog Cron.Stopped (reached Cron.prog Cron.newServer (beside 4 ++ [.cancel 0])) 1 := by
  obtain ⟨hasynq, hcron⟩ := stop_returns_iff (ι := ℕ)
  constructor
  · have hreleasable := ((hasynq Asynq.idleServer (beside 6 ++ [.cancel 0]) 0).2 Asynq.finish rfl).2.2 rfl
    exact ((hasynq Asynq.idleServer (beside 6 ++ [.cancel 0]) 1).1 rfl).2 hreleasable
  · have hreleasable := ((hcron (beside 4 ++ [.cancel 0]) 0).2 Cron.finish rfl).2.2 rfl
    exact ((hcron (beside 4 ++ [.cancel 0]) 1).1 rfl).2 hreleasable

/-- **A Stop that never returns.** `Start` waits for its context with the mutex in hand when `Stop` is called. Whatever
the goroutines do from then on, `Stop` does not return as long as no context is cancelled. -/
theorem stop_blocked :
    ((reached Asynq.prog Asynq.idleServer (beside 6)).code 0 = .await Asynq.finish ∧
      (reached Asynq.prog Asynq.idleServer (beside 6)).code 1 = Asynq.stop ∧
      ¬ CanReturn Asynq.prog Asynq.Stopped (reached Asynq.prog Asynq.idleServer (beside 6)) 1) ∧
    ((reached Cron.prog Cron.newServer (beside 4)).code 0 = .await Cron.finish ∧
      (reached Cron.prog Cron.newServer (beside 4)).code 1 = Cron.stop ∧
      ¬ CanReturn Cron.prog Cron.Stopped (reached Cron.prog Cron.newServer (beside 4)) 1) := by
  refine ⟨⟨rfl, rfl, fun hret => ?_⟩, ⟨rfl, rfl, fun hret => ?_⟩⟩
  · have hcan := (canReturn_asynq_iff Asynq.idleServer (beside 6) rfl).1 hret
    have hwaits := waiting_iff (i := 0) (k := Asynq.finish) Asynq.balanced_prog Asynq.idleServer
      (beside 6) rfl
    exact Bool.noConfusion (hwaits.2.1 hcan)
  · have hcan := (canReturn_cron_iff (beside 4) rfl).1 hret
    have hwaits := waiting_iff (i := 0) (k := Cron.finish) Cron.balanced_prog Cron.newServer
      (beside 4) rfl
    exact Bool.noConfusion (hwaits.2.1 hcan)

end LuluExt.StartStop
