/-
The connection of the RabbitMQ broker: Connect, Close and the goroutine that reconnects.

`Connect` dials outside the lock, marks the connection as made, closes `waitConnection` to wake the subscribers and
starts a goroutine. The goroutine waits for the loss of the connection or for the closing of `r.close`; on a loss it
makes a new `waitConnection` and dials until it succeeds, without looking at `r.close` again. `Close` closes the AMQP
connection too, so both cases of the select are ready afterwards and either may be taken. `waitConnection` is renewed
only by the goroutine when it notices a loss, so a Connect after a Close closes it a second time.

Any number of callers of Connect and of goroutines run interleaved; a caller that has connected becomes its goroutine. A
section under the lock is one step, and so is each statement outside it. Beside the state the model records how often
each channel was closed, and what `stays_closed_iff` speaks of.
-/
import LuluExt.Lib.Run

namespace LuluExt.Rabbitmq

open Run

/-! ## Model -/

/-- who dials: a caller of Connect gives up on an error, the goroutine tries again -/
inductive Role where
  | connect
  | reconnect
deriving DecidableEq, Repr

inductive Proc where
  | idle
  /-- before `DialConfig` of `tryConnect` -/
  | dial (role : Role)
  /-- before the rest of `tryConnect`, which opens the channel -/
  | openChannel (role : Role)
  /-- `tryConnect` has returned nil -/
  | mark
  /-- before `close(r.waitConnection)` -/
  | announce
  | watch
  /-- before the select, with the notifications of a connection -/
  | select (conn : ℕ)
  /-- in the select, on the loss of a connection and on a channel -/
  | wait (conn : ℕ) (close : ℕ)
deriving DecidableEq, Repr

/-- AMQP connections and channels are numbered in the order in which they were made -/
structure Connection where
  connected : Bool
  connection : Option ℕ
  alive : ℕ → Bool
  dialled : ℕ
  close : ℕ
  waitConnection : ℕ
  chans : ℕ
  closings : ℕ → ℕ
  procs : ℕ → Proc
  crashed : Bool
  stopped : Bool
  announced : Bool
  survived : Bool

def newRabbitMQConnection : Connection where
  connected := false
  connection := none
  alive _ := false
  dialled := 0
  close := 0
  waitConnection := 1
  chans := 2
  closings _ := 0
  procs _ := .idle
  crashed := false
  stopped := false
  announced := false
  survived := false

inductive Op where
  | connect (i : ℕ)
  | dial (i : ℕ) (ok : Bool)
  | openChannel (i : ℕ) (ok : Bool)
  | mark (i : ℕ)
  | announce (i : ℕ)
  | watch (i : ℕ)
  | select (i : ℕ)
  /-- the select takes the loss -/
  | lost (i : ℕ)
  /-- the select takes `r.close` -/
  | ended (i : ℕ)
  | close
  | loss (conn : ℕ)
deriving DecidableEq, Repr

def Connection.set (s : Connection) (i : ℕ) (p : Proc) : Connection := { s with procs := Function.update s.procs i p }

def Connection.closeChan (s : Connection) (ch : ℕ) : Connection :=
  { s with closings := Function.update s.closings ch (s.closings ch + 1) }

def connect (s : Connection) (i : ℕ) : Connection :=
  if s.connected = true then { s with stopped := false }
  else if s.closings s.close ≠ 0 then
    { s with stopped := false, close := s.chans, chans := s.chans + 1 }.set i (.dial .connect)
  else { s with stopped := false }.set i (.dial .connect)

def Role.retry : Role → Proc
  | .connect => .idle
  | .reconnect => .dial .reconnect

/-- a goroutine that comes from a call of `tryConnect` does not look at `r.close` -/
def Connection.goOn (s : Connection) (role : Role) : Connection :=
  { s with survived := s.survived || (s.stopped && role == .reconnect) }

def dial (s : Connection) (i : ℕ) (role : Role) (ok : Bool) : Connection :=
  let s := s.goOn role
  if ok then
    { s with
      connection := some s.dialled
      alive := Function.update s.alive s.dialled true
      dialled := s.dialled + 1 }.set i (.openChannel role)
  else { s with connection := none }.set i role.retry

/-- the channel of a nil connection panics -/
def openChannel (s : Connection) (i : ℕ) (role : Role) (ok : Bool) : Connection :=
  let s := s.goOn role
  if s.connection = none then { s with crashed := true }
  else s.set i (if ok then .mark else role.retry)

/-- the second close of a channel panics -/
def announce (s : Connection) (i : ℕ) : Connection :=
  let s' := { s.closeChan s.waitConnection with announced := true }
  if s.closings s.waitConnection ≠ 0 then { s' with crashed := true } else s'.set i .watch

/-- `NotifyClose` of a nil connection panics -/
def watch (s : Connection) (i : ℕ) : Connection :=
  match s.connection with
  | none => { s with crashed := true }
  | some conn => s.set i (.select conn)

def lost (s : Connection) (i : ℕ) : Connection :=
  { s with
    connected := false
    waitConnection := s.chans
    chans := s.chans + 1
    announced := false
    survived := s.survived || s.stopped
    procs := Function.update s.procs i (.dial .reconnect) }

def close (s : Connection) : Connection :=
  let s := { s with stopped := true }
  if s.closings s.close ≠ 0 then s
  else
    { s.closeChan s.close with
      connected := false
      alive := fun conn => s.alive conn && decide (s.connection ≠ some conn) }

/-- a step that is not possible changes nothing -/
def step (s : Connection) (op : Op) : Connection :=
  if s.crashed = true then s
  else
    match op with
    | .connect i => if s.procs i = .idle then connect s i else s
    | .dial i ok =>
      match s.procs i with
      | .dial role => dial s i role ok
      | _ => s
    | .openChannel i ok =>
      match s.procs i with
      | .openChannel role => openChannel s i role ok
      | _ => s
    | .mark i => if s.procs i = .mark then { s with connected := true }.set i .announce else s
    | .announce i => if s.procs i = .announce then announce s i else s
    | .watch i => if s.procs i = .watch then watch s i else s
    | .select i =>
      match s.procs i with
      | .select conn => s.set i (.wait conn s.close)
      | _ => s
    | .lost i =>
      match s.procs i with
      | .wait conn _ => if s.alive conn = false then lost s i else s
      | _ => s
    | .ended i =>
      match s.procs i with
      | .wait _ ch => if s.closings ch ≠ 0 then s.set i .idle else s
      | _ => s
    | .close => close s
    | .loss conn => { s with alive := Function.update s.alive conn false }

/-! ## The property and the condition -/

/-- no channel was closed twice; after Close nothing is connected, and no goroutine has gone on -/
structure Sound (s : Connection) : Prop where
  once : ∀ ch, s.closings ch ≤ 1
  disconnected : s.stopped = true → s.connected = false
  ended : s.survived = false

def Orderly (s : Connection) (op : Op) : Prop :=
  s.crashed = false →
    match op with
    | .dial i _ => s.procs i = .dial .reconnect → s.stopped = false
    | .openChannel i _ => s.procs i = .openChannel .reconnect → s.stopped = false
    | .mark i => s.procs i = .mark → s.stopped = false
    | .announce i => s.procs i = .announce → s.announced = false
    | .lost i => ∀ conn ch, s.procs i = .wait conn ch → s.alive conn = false → s.stopped = false
    | _ => True

/-- the channels in use are two; `waitConnection` is closed when a connection was announced, `r.close` when Close has
returned and Connect was not called again -/
structure Inv (s : Connection) : Prop extends Sound s where
  fresh : ∀ ch, s.chans ≤ ch → s.closings ch = 0
  made : s.waitConnection < s.chans ∧ s.close < s.chans
  distinct : s.waitConnection ≠ s.close
  announced : s.closings s.waitConnection = 0 ↔ s.announced = false
  running : s.stopped = false → s.closings s.close = 0

/-! ## One step -/

section

variable {s : Connection}

theorem inv_new : Inv newRabbitMQConnection where
  once _ := Nat.zero_le _
  disconnected _ := rfl
  ended := rfl
  fresh _ _ := rfl
  made := by decide
  distinct := by decide
  announced := ⟨fun _ => rfl, fun _ => rfl⟩
  running _ := rfl

theorem Inv.set (h : Inv s) (i : ℕ) (p : Proc) : Inv (s.set i p) := { h with }

theorem closeChan_of_ne {c ch : ℕ} (hne : c ≠ ch) : (s.closeChan ch).closings c = s.closings c :=
  Function.update_of_ne hne _ _

theorem closeChan_self (ch : ℕ) : (s.closeChan ch).closings ch = s.closings ch + 1 := Function.update_self _ _ _

theorem once_closeChan {ch : ℕ} (h : ∀ c, s.closings c ≤ 1) (hopen : s.closings ch = 0) (c : ℕ) :
    (s.closeChan ch).closings c ≤ 1 := by
  by_cases hc : c = ch
  · rw [hc, closeChan_self, hopen]
  · rw [closeChan_of_ne hc]
    exact h c

theorem Inv.not_stopped (h : Inv s) (hconn : s.connected) : s.stopped = false := by
  cases hs : s.stopped with
  | false => rfl
  | true =>
    rw [h.disconnected hs] at hconn
    cases hconn

theorem inv_connect (h : Inv s) (i : ℕ) : Inv (connect s i) := by
  have hmade := h.made
  unfold connect
  split_ifs with hconn hclosed
  · exact { h with disconnected := nofun, running := fun _ => h.running (h.not_stopped hconn) }
  · -- a new channel in the place of the closed one
    apply Inv.set
    exact { h with
      disconnected := nofun
      fresh := fun c hc => h.fresh c (Nat.le_of_succ_le hc)
      made := ⟨Nat.lt_succ_of_lt hmade.1, Nat.lt_succ_self _⟩
      distinct := Nat.ne_of_lt hmade.1
      running := fun _ => h.fresh s.chans le_rfl }
  · exact { h with disconnected := nofun, running := fun _ => not_not.1 hclosed }

theorem Inv.goOn (h : Inv s) {role : Role} (hrole : role = .reconnect → s.stopped = false) : Inv (s.goOn role) := by
  have hsurvived : (s.survived || (s.stopped && role == .reconnect)) = false := by
    rw [h.ended]
    cases role with
    | connect => simp
    | reconnect => simp [hrole rfl]
  exact { h with ended := hsurvived }

theorem inv_dial (h : Inv s) (i : ℕ) {role : Role} (ok : Bool) (hrole : role = .reconnect → s.stopped = false) :
    Inv (dial s i role ok) := by
  unfold dial
  split_ifs
  all_goals exact { h.goOn hrole with }

theorem inv_openChannel (h : Inv s) (i : ℕ) {role : Role} (ok : Bool) (hrole : role = .reconnect → s.stopped = false) :
    Inv (openChannel s i role ok) := by
  unfold openChannel
  dsimp only
  split_ifs
  all_goals exact { h.goOn hrole with }

theorem inv_mark (h : Inv s) (i : ℕ) (hs : s.stopped = false) : Inv ({ s with connected := true }.set i .announce) := by
  refine { h with disconnected := fun hstop => ?_ }
  rw [show s.stopped from hstop] at hs
  cases hs

theorem inv_announce (h : Inv s) (i : ℕ) (hann : s.announced = false) : Inv (announce s i) := by
  have hopen := h.announced.2 hann
  unfold announce
  rw [if_neg (not_not.2 hopen)]
  refine { h with
    once := once_closeChan h.once hopen
    fresh := fun c hc => ?_
    announced := ?_
    running := fun hs => ?_ }
  · exact (closeChan_of_ne (Nat.ne_of_gt (h.made.1.trans_le hc))).trans (h.fresh c hc)
  · simp [Connection.closeChan, Connection.set]
  · exact (closeChan_of_ne h.distinct.symm).trans (h.running hs)

theorem inv_watch (h : Inv s) (i : ℕ) : Inv (watch s i) := by
  unfold watch
  cases s.connection with
  | none => exact { h with }
  | some conn => exact h.set i _

theorem inv_lost (h : Inv s) (i : ℕ) (hs : s.stopped = false) : Inv (lost s i) := by
  have hmade := h.made
  exact { h with
    disconnected := fun _ => rfl
    ended := by simp [lost, h.ended, hs]
    fresh := fun c hc => h.fresh c (Nat.le_of_succ_le hc)
    made := ⟨Nat.lt_succ_self _, Nat.lt_succ_of_lt hmade.2⟩
    distinct := Nat.ne_of_gt hmade.2
    announced := by simp [lost, h.fresh s.chans le_rfl] }

theorem inv_close (h : Inv s) : Inv (close s) := by
  unfold close
  dsimp only
  split_ifs with hclosed
  · -- closed already, and Connect was not called since
    have hstopped : s.stopped := by
      by_contra hs
      exact hclosed (h.running (Bool.eq_false_iff.2 hs))
    exact { h with disconnected := fun _ => h.disconnected hstopped, running := nofun }
  · have hopen := not_not.1 hclosed
    exact { h with
      once := once_closeChan h.once hopen
      disconnected := fun _ => rfl
      fresh := fun c hc => (closeChan_of_ne (Nat.ne_of_gt (h.made.2.trans_le hc))).trans (h.fresh c hc)
      announced := (Eq.congr_left (closeChan_of_ne h.distinct)).trans h.announced
      running := nofun }

theorem inv_step {op : Op} (h : Inv s) (hc : Orderly s op) : Inv (step s op) := by
  by_cases hcrash : s.crashed
  · unfold step
    rw [if_pos hcrash]
    exact h
  have hc := hc (Bool.eq_false_iff.2 hcrash)
  unfold step
  rw [if_neg hcrash]
  cases op with
  | connect i => exact guard_inv h fun _ => inv_connect h i
  | dial i ok =>
    dsimp only
    split
    next role hproc => exact inv_dial h i ok fun hrole => hc (hrole ▸ hproc)
    next => exact h
  | openChannel i ok =>
    dsimp only
    split
    next role hproc => exact inv_openChannel h i ok fun hrole => hc (hrole ▸ hproc)
    next => exact h
  | mark i => exact guard_inv h fun hproc => inv_mark h i (hc hproc)
  | announce i => exact guard_inv h fun hproc => inv_announce h i (hc hproc)
  | watch i => exact guard_inv h fun _ => inv_watch h i
  | select i =>
    dsimp only
    split
    next => exact h.set i _
    next => exact h
  | lost i =>
    dsimp only
    split
    next conn ch hproc => exact guard_inv h fun halive => inv_lost h i (hc conn ch hproc halive)
    next => exact h
  | ended i =>
    dsimp only
    split
    next => exact guard_inv h fun _ => h.set i _
    next => exact h
  | close => exact inv_close h
  | loss conn => exact { h with }

theorem not_sound {op : Op} (h : Inv s) (hc : ¬ Orderly s op) : ¬ Sound (step s op) := by
  unfold Orderly at hc
  rw [Classical.not_imp] at hc
  obtain ⟨hcrash, hc⟩ := hc
  intro hsound
  cases op with
  | dial i ok =>
    simp only [Classical.not_imp] at hc
    obtain ⟨hproc, hstopped⟩ := hc
    have hended := hsound.ended
    cases ok <;> simp [step, hcrash, hproc, dial, hstopped, Connection.set, Connection.goOn] at hended
  | openChannel i ok =>
    simp only [Classical.not_imp] at hc
    obtain ⟨hproc, hstopped⟩ := hc
    have hended := hsound.ended
    by_cases hnone : s.connection = none <;>
      simp [step, hcrash, hproc, openChannel, hnone, hstopped, Connection.set, Connection.goOn] at hended
  | mark i =>
    simp only [Classical.not_imp] at hc
    obtain ⟨hproc, hstopped⟩ := hc
    have hdisc := hsound.disconnected
    simp [step, hcrash, hproc, hstopped, Connection.set] at hdisc
  | announce i =>
    simp only [Classical.not_imp, Bool.not_eq_false] at hc
    obtain ⟨hproc, hann⟩ := hc
    have hclosed : s.closings s.waitConnection ≠ 0 := by
      rw [Ne, h.announced, hann]
      decide
    have honce := hsound.once s.waitConnection
    simp [step, hcrash, hproc, announce, hclosed, Connection.closeChan] at honce
  | lost i =>
    simp only [not_forall] at hc
    obtain ⟨conn, ch, hproc, halive, hstopped⟩ := hc
    have hended := hsound.ended
    simp [step, hcrash, hproc, halive, lost, hstopped] at hended
  | _ => exact hc trivial

end

/-- **When a connection stays closed.** In every interleaving: no channel is closed twice, and after a Close without a
later Connect nothing is connected and every goroutine ends at its next decision, if and only if a loss has been noticed
before each announcement but the first, and after such a Close no goroutine takes the loss or comes from a dial or a new
channel, and nobody marks a connection. -/
theorem stays_closed_iff (ops : List Op) :
    Always step Sound newRabbitMQConnection ops ↔ Along step Orderly newRabbitMQConnection ops :=
  always_iff_along_of_inv (I := Inv) (fun _ h => h.toSound) (fun _ _ => inv_step) (fun _ _ => not_sound) inv_new ops

def install (i : ℕ) : List Op := [.dial i true, .openChannel i true, .mark i, .announce i]

def connected (i : ℕ) : List Op := Op.connect i :: install i ++ [Op.watch i, Op.select i]

def reopened : List Op := connected 0 ++ [Op.close, Op.ended 0] ++ connected 1

/-- the goroutine takes the loss of the connection that Close has closed -/
def resumed : List Op := connected 0 ++ [Op.close, Op.lost 0] ++ install 0

def dialling : List Op := connected 0 ++ [Op.loss 0, Op.lost 0, Op.close, Op.dial 0 false, Op.dial 0 false]

def after (ops : List Op) : Connection := run step newRabbitMQConnection ops

/-- **What goes wrong.** `waitConnection` is closed twice by a Connect after a Close, and by two callers of Connect; a
goroutine that takes the loss connects after the Close; and one that was dialling goes on to dial. -/
theorem reconnected :
    ((after reopened).crashed = true ∧ (after reopened).closings 1 = 2) ∧
    (after (Op.connect 0 :: Op.connect 1 :: install 0 ++ install 1)).closings 1 = 2 ∧
    ((after resumed).stopped = true ∧ (after resumed).connected = true) ∧
    ((after dialling).stopped = true ∧ (after dialling).procs 0 = .dial .reconnect) := by
  decide +kernel

end LuluExt.Rabbitmq
