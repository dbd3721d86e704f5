/-
The delays of the four loops that reconnect: `reconnect` of the RabbitMQ connection, `loopConnect` of the MQTT broker,
and `recv` of the Redis pub/sub and of the Redis stream subscriber.

Each of them starts with a delay of one second and declares a maximum of 30 seconds, and doubles the delay after each
failure while it is below the maximum: 1, 2, 4, 8, 16 and then 32 seconds. Only the pub/sub loop sets the delay back
after a success; in the RabbitMQ and the stream loop the failures of the whole life of the loop count. A turn is one
iteration, with what it meets. The loops themselves are those of Rabbitmq.Connection, Mqtt, RedisPubsub and RedisStream,
which leave out the delay.
-/
import LuluExt.Lib.Backoff
import LuluExt.Lib.Run

namespace LuluExt.Reconnect

open Run Backoff

/-- in nanoseconds; all delays are far below 2^63 -/
def second : ℕ := 1000000000

def maxReconnectDelay : ℕ := 30 * second

structure Loop where
  reconnectDelay : ℕ
  /-- the newest first: a failure with the delay after it, or a success -/
  log : List (Option ℕ)
  returned : Bool
deriving DecidableEq, Repr

def enter : Loop := ⟨1 * second, [], false⟩

namespace Loop

def succeeded (s : Loop) : Loop := { s with log := none :: s.log }

def reset (s : Loop) : Loop := { s.succeeded with reconnectDelay := 1 * second }

def sleep (s : Loop) : Loop := { s with log := some s.reconnectDelay :: s.log }

/-- `if reconnectDelay < maxReconnectDelay { reconnectDelay *= 2 }` -/
def double (s : Loop) : Loop :=
  { s with reconnectDelay := if s.reconnectDelay < maxReconnectDelay then s.reconnectDelay * 2 else s.reconnectDelay }

def quit (s : Loop) : Loop := { s with returned := true }

/-- the select of the Redis loops: the context may be done before the delay is over -/
def pause (s : Loop) (done : Bool) : Loop := if done then s.sleep.quit else s.sleep.double

end Loop

/-! ## The loops -/

namespace Rabbitmq

structure State extends Loop where
  /-- false in the first turn, which has a connection -/
  connect : Bool
deriving DecidableEq, Repr

def start : State := ⟨enter, false⟩

structure Turn where
  /-- `tryConnect` returns nil -/
  connects : Bool
  /-- the select takes `r.close`, not the loss of the connection -/
  closed : Bool
deriving DecidableEq, Repr

def watch (s : Loop) (t : Turn) : State := ⟨if t.closed then s.quit else s, true⟩

def reconnect (s : State) (t : Turn) : State :=
  if s.returned then s
  else if s.connect then
    if t.connects = false then { s with toLoop := s.sleep.double } else watch s.succeeded t
  else watch s.toLoop t

end Rabbitmq

namespace Mqtt

def loopConnect (s : Loop) (ok : Bool) : Loop :=
  if s.returned then s else if ok then s.succeeded.quit else s.sleep.double

end Mqtt

structure Turn where
  /-- `IsClosed` at the head of the loop -/
  closed : Bool
  /-- `reconnect` of the pub/sub subscriber, if it comes to that -/
  reconnects : Bool
  err : Bool
  /-- `IsClosed` after `receiveLoop` -/
  closing : Bool
  /-- the context is done before the delay is over -/
  done : Bool
deriving DecidableEq, Repr

namespace Pubsub

structure State extends Loop where
  conn : Bool
deriving DecidableEq, Repr

def start : State := ⟨enter, true⟩

/-- the rest of the turn, with a connection; it is closed after `receiveLoop` -/
def receive (s : Loop) (t : Turn) : State :=
  ⟨if t.err = false ∨ t.closing = true then s.quit else s.pause t.done, false⟩

def recv (s : State) (t : Turn) : State :=
  if s.returned then s
  else if t.closed then { s with toLoop := s.quit }
  else if s.conn then receive s.toLoop t
  else if t.reconnects = false then { s with toLoop := s.pause t.done }
  else receive s.reset t

end Pubsub

namespace Stream

/-- the result of `ensureGroup`, after the delay, changes nothing -/
def recv (s : Loop) (t : Turn) : Loop :=
  if s.returned then s
  else if t.closed then s.quit
  else if t.err = false ∨ t.closing = true then s.quit
  else s.pause t.done

end Stream

/-! ## What is required -/

structure Respects (log : List (Option ℕ)) : Prop where
  atLeast : ∀ d, some d ∈ log → 1 * second ≤ d
  atMost : ∀ d, some d ∈ log → d ≤ maxReconnectDelay
  rising : Rising log

/-- the rule of a loop that sets the delay back after a success, or does not -/
def rule (resets : Bool) : Rule := ⟨1 * second, maxReconnectDelay, resets⟩

/-- the delay is that for the failures so far, unless the loop has returned -/
structure Paced (resets : Bool) (s : Loop) : Prop where
  delay : s.returned = false → s.reconnectDelay = (rule resets).delay ((rule resets).streak (outcomes s.log))
  follows : (rule resets).Follows s.log

variable {resets : Bool} {s : Loop}

namespace Paced

theorem enter (resets : Bool) : Paced resets enter := ⟨fun _ => (delay_zero (rule resets)).symm, trivial⟩

theorem quit (h : Paced resets s) : Paced resets s.quit := ⟨fun hr => (by cases hr), h.follows⟩

variable (hs : s.returned = false) (h : Paced resets s)

include hs h

theorem sleep_follows : (rule resets).Follows s.sleep.log := ⟨h.delay hs, h.follows⟩

theorem sleep_double : Paced resets s.sleep.double where
  delay _ := by
    have hdelay : s.sleep.double.reconnectDelay = (rule resets).double s.reconnectDelay := rfl
    rw [hdelay, h.delay hs]
    exact (delay_succ ..).symm
  follows := h.sleep_follows hs

theorem pause (done : Bool) : Paced resets (s.pause done) := by
  cases done with
  | true => exact ⟨fun hr => (by cases hr), h.sleep_follows hs⟩
  | false => exact h.sleep_double hs

end Paced

theorem Paced.succeeded (h : Paced false s) : Paced false s.succeeded := ⟨h.delay, h.follows⟩

theorem Paced.reset (h : Paced true s) : Paced true s.reset := ⟨fun _ => (delay_zero (rule true)).symm, h.follows⟩

/-! ## Runs -/

theorem paced_watch (h : Paced false s) (t : Rabbitmq.Turn) : Paced false (Rabbitmq.watch s t).toLoop := by
  unfold Rabbitmq.watch
  split_ifs
  · exact h.quit
  · exact h

theorem paced_rabbitmq (turns : List Rabbitmq.Turn) :
    Paced false (run Rabbitmq.reconnect Rabbitmq.start turns).toLoop := by
  refine run_inv (I := fun s : Rabbitmq.State => Paced false s.toLoop) (fun s t h => ?_) (Paced.enter false) turns
  unfold Rabbitmq.reconnect
  split_ifs with hr
  · exact h
  · exact h.sleep_double (Bool.eq_false_iff.2 hr)
  · exact paced_watch h.succeeded t
  · exact paced_watch h t

theorem paced_mqtt (attempts : List Bool) : Paced false (run Mqtt.loopConnect enter attempts) := by
  refine run_inv (fun s ok h => ?_) (Paced.enter false) attempts
  unfold Mqtt.loopConnect
  split_ifs with hr
  · exact h
  · exact h.succeeded.quit
  · exact h.sleep_double (Bool.eq_false_iff.2 hr)

theorem paced_receive (hs : s.returned = false) (h : Paced resets s) (t : Turn) :
    Paced resets (Pubsub.receive s t).toLoop := by
  unfold Pubsub.receive
  split_ifs
  · exact h.quit
  · exact h.pause hs t.done

theorem paced_pubsub (turns : List Turn) : Paced true (run Pubsub.recv Pubsub.start turns).toLoop := by
  refine run_inv (I := fun s : Pubsub.State => Paced true s.toLoop) (fun s t h => ?_) (Paced.enter true) turns
  unfold Pubsub.recv
  split_ifs with hr
  · exact h
  · exact h.quit
  · exact paced_receive (Bool.eq_false_iff.2 hr) h t
  · exact h.pause (Bool.eq_false_iff.2 hr) t.done
  · exact paced_receive (s := s.reset) (Bool.eq_false_iff.2 hr) h.reset t

theorem paced_stream (turns : List Turn) : Paced false (run Stream.recv enter turns) := by
  refine run_inv (fun s t h => ?_) (Paced.enter false) turns
  unfold Stream.recv
  split_ifs with hr
  · exact h
  · exact h.quit
  · exact h.quit
  · exact h.pause (Bool.eq_false_iff.2 hr) t.done

theorem delay_four (resets : Bool) : (rule resets).delay 4 = 16 * second := by cases resets <;> decide

theorem delay_five (resets : Bool) : (rule resets).delay 5 = 32 * second := by cases resets <;> decide

theorem delay_le_iff (resets : Bool) (n : ℕ) : (rule resets).delay n ≤ maxReconnectDelay ↔ n < 5 := by
  constructor
  · intro hn
    by_contra hlt
    have hfive : (rule resets).delay 5 ≤ (rule resets).delay n := delay_mono _ (by omega)
    rw [delay_five] at hfive
    exact absurd (hfive.trans hn) (by decide)
  · intro hn
    have hfour : (rule resets).delay n ≤ (rule resets).delay 4 := delay_mono _ (by omega)
    rw [delay_four] at hfour
    exact hfour.trans (by decide)

/-- **The delays of any run.** They are never below the first one, never fall between consecutive failures, and are at
most 32 seconds. -/
theorem Paced.bounds (h : Paced resets s) :
    (∀ d, some d ∈ s.log → 1 * second ≤ d ∧ d ≤ 32 * second) ∧ Rising s.log := by
  have hmax : (rule resets).max ≤ (rule resets).delay 5 := by
    rw [delay_five]
    exact (by decide : maxReconnectDelay ≤ 32 * second)
  refine ⟨fun d hd => ?_, h.follows.rising⟩
  obtain ⟨n, rfl⟩ := h.follows.exists_delay hd
  rw [← delay_five resets]
  exact ⟨initial_le_delay (rule resets) n, delay_le_of_le hmax n⟩

theorem Paced.respects_iff (h : Paced resets s) {failed : List Bool} (hfailed : outcomes s.log = failed.reverse ++ []) :
    Respects s.log ↔ (rule resets).Within 5 failed.reverse := by
  rw [List.append_nil] at hfailed
  rw [← hfailed, ← h.follows.atMost_iff (delay_le_iff resets)]
  obtain ⟨hbounds, hrising⟩ := h.bounds
  exact ⟨fun hlog => hlog.atMost, fun hmost => ⟨fun d hd => (hbounds d hd).1, hmost, hrising⟩⟩

/-! ## Failures in the inputs

Which attempts fail, the first one first, as the inputs have it: nothing here depends on the delays. -/

def Rabbitmq.failures : Bool → List Rabbitmq.Turn → List Bool
  | _, [] => []
  | false, t :: turns => if t.closed then [] else failures true turns
  | true, t :: turns =>
    if t.connects = false then true :: failures true turns
    else false :: if t.closed then [] else failures true turns

def Mqtt.failures : List Bool → List Bool
  | [] => []
  | ok :: attempts => if ok then [false] else true :: failures attempts

def Pubsub.failures : Bool → List Turn → List Bool
  | _, [] => []
  | conn, t :: turns =>
    let received := if t.err = false ∨ t.closing then [] else true :: if t.done then [] else failures false turns
    if t.closed then []
    else if conn then received
    else if t.reconnects = false then true :: if t.done then [] else failures false turns
    else false :: received

def Stream.failures : List Turn → List Bool
  | [] => []
  | t :: turns =>
    if t.closed ∨ t.err = false ∨ t.closing then [] else true :: if t.done then [] else failures turns

theorem outcomes_rabbitmq (s : Rabbitmq.State) (turns : List Rabbitmq.Turn) :
    outcomes (run Rabbitmq.reconnect s turns).log =
      (if s.returned then [] else Rabbitmq.failures s.connect turns).reverse ++ outcomes s.log := by
  induction turns generalizing s with
  | nil => cases s.connect <;> simp [Rabbitmq.failures]
  | cons t turns ih =>
    rw [run_cons, ih]
    unfold Rabbitmq.reconnect Rabbitmq.watch
    split_ifs <;> simp_all [Rabbitmq.failures, outcomes, Loop.sleep, Loop.double, Loop.quit, Loop.succeeded]

theorem outcomes_mqtt (s : Loop) (attempts : List Bool) :
    outcomes (run Mqtt.loopConnect s attempts).log =
      (if s.returned then [] else Mqtt.failures attempts).reverse ++ outcomes s.log := by
  induction attempts generalizing s with
  | nil => simp [Mqtt.failures]
  | cons ok attempts ih =>
    rw [run_cons, ih]
    unfold Mqtt.loopConnect
    split_ifs <;> simp_all [Mqtt.failures, outcomes, Loop.sleep, Loop.double, Loop.quit, Loop.succeeded]

theorem outcomes_pubsub (s : Pubsub.State) (turns : List Turn) :
    outcomes (run Pubsub.recv s turns).log =
      (if s.returned then [] else Pubsub.failures s.conn turns).reverse ++ outcomes s.log := by
  induction turns generalizing s with
  | nil => simp [Pubsub.failures]
  | cons t turns ih =>
    rw [run_cons, ih]
    unfold Pubsub.recv Pubsub.receive Loop.pause
    split_ifs <;>
      simp_all [Pubsub.failures, outcomes, Loop.sleep, Loop.double, Loop.quit, Loop.succeeded, Loop.reset]

theorem outcomes_stream (s : Loop) (turns : List Turn) :
    outcomes (run Stream.recv s turns).log =
      (if s.returned then [] else Stream.failures turns).reverse ++ outcomes s.log := by
  induction turns generalizing s with
  | nil => simp [Stream.failures]
  | cons t turns ih =>
    rw [run_cons, ih]
    unfold Stream.recv Loop.pause
    split_ifs <;> simp_all [Stream.failures, outcomes, Loop.sleep, Loop.double, Loop.quit]

/-- **When the maximum is kept.** For each of the loops and every sequence of turns: every delay is between one second
and the maximum and does not fall between consecutive failures, if and only if there are at no time more than five
failures since the delay was set, which only the pub/sub loop does after a success. -/
theorem delays_respect_iff (connection : List Rabbitmq.Turn) (attempts : List Bool) (turns : List Turn) :
    (Respects (run Rabbitmq.reconnect Rabbitmq.start connection).log ↔
      (rule false).Within 5 (Rabbitmq.failures false connection).reverse) ∧
    (Respects (run Mqtt.loopConnect enter attempts).log ↔ (rule false).Within 5 (Mqtt.failures attempts).reverse) ∧
    (Respects (run Pubsub.recv Pubsub.start turns).log ↔ (rule true).Within 5 (Pubsub.failures true turns).reverse) ∧
    (Respects (run Stream.recv enter turns).log ↔ (rule false).Within 5 (Stream.failures turns).reverse) := by
  refine ⟨?_, ?_, ?_, ?_⟩
  · exact (paced_rabbitmq connection).respects_iff (outcomes_rabbitmq Rabbitmq.start connection)
  · exact (paced_mqtt attempts).respects_iff (outcomes_mqtt enter attempts)
  · exact (paced_pubsub turns).respects_iff (outcomes_pubsub Pubsub.start turns)
  · exact (paced_stream turns).respects_iff (outcomes_stream enter turns)

def losses : ℕ → List Rabbitmq.Turn
  | 0 => []
  | n + 1 => ⟨false, false⟩ :: ⟨true, false⟩ :: losses n

def failing : Turn := ⟨false, false, true, false, false⟩

/-- **A delay of 32 seconds**, past the maximum of 30, after the sixth failure; for RabbitMQ even though every second
attempt succeeds. -/
theorem maximum_passed :
    ¬ Respects (run Rabbitmq.reconnect Rabbitmq.start (⟨true, false⟩ :: losses 6)).log ∧
    ¬ Respects (run Mqtt.loopConnect enter (List.replicate 6 false)).log ∧
    ¬ Respects (run Pubsub.recv Pubsub.start (List.replicate 6 failing)).log ∧
    ¬ Respects (run Stream.recv enter (List.replicate 6 failing)).log := by
  have hpassed : ∀ log, some (32 * second) ∈ log → ¬ Respects log := by
    intro log hmem hlog
    exact absurd (hlog.atMost _ hmem) (by decide)
  exact ⟨hpassed _ (by decide), hpassed _ (by decide), hpassed _ (by decide), hpassed _ (by decide)⟩

end LuluExt.Reconnect
