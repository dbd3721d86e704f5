/-
The NATS and JetStream brokers with the drain option: who sends and who receives on `closeCh`.

`Init` makes the channel, without a buffer, and puts the callbacks into the options; each connection made afterwards has
them. `Disconnect` sends on the channel while it holds the broker's lock. `onClose`, `onDisconnectedError` and, for a
drain that timed out, `onAsyncError` send on it too. The two brokers differ in Connect only: the one of JetStream closes
the new connection again when it has no JetStream context.

Any number of callers and callbacks run interleaved. `Init` takes no lock, so each of its assignments is one step. A
send takes place together with a receive on the same channel (`Op.sync`). No statement of the brokers receives on it
(`receivesFrom_eq_none`), so that a goroutine which has come to its send stays there for ever (`send_run`).

- `stuck_iff`: a call or callback is blocked for ever exactly when it is at its send;
- `drain_iff`: in which runs no state that is reached has one.
-/
import LuluExt.Lib.Run

namespace LuluExt.Nats

open Run

/-! ## Model -/

inductive Callback where
  | onClose
  | onAsyncError (drainTimeout : Bool)
  | onDisconnectedError
deriving DecidableEq, Repr

def Callback.sends : Callback → Bool
  | .onClose => true
  | .onAsyncError drainTimeout => drainTimeout
  | .onDisconnectedError => true

/-- where a goroutine is; a channel is none if it is nil -/
inductive Proc where
  | idle
  | init
  /-- Init, before `b.closeCh = make(chan error)` -/
  | make
  /-- Init, before the callbacks are put into the options -/
  | hook
  | connect
  | disconnect
  /-- Disconnect, before `b.closeCh != nil` -/
  | drain
  /-- Disconnect, at `b.closeCh <- nil` -/
  | send (c : Option ℕ)
  /-- Disconnect, before it closes the connection and gives the lock back -/
  | close
  | callback (k : Callback)
  /-- a callback, at its send -/
  | report (c : Option ℕ)
deriving DecidableEq, Repr

def Proc.sendsTo : Proc → Option ℕ
  | .send c | .report c => c
  | _ => none

/-- the channel that the goroutine receives from: no statement does -/
def Proc.receivesFrom : Proc → Option ℕ
  | .idle | .init | .make | .hook | .connect | .disconnect | .drain | .send _ | .close | .callback _ | .report _ => none

def Proc.sent : Proc → Proc
  | .send _ => .close
  | .report _ => .idle
  | p => p

/-- channels are numbered in the order in which they were made -/
structure Broker where
  connected : Bool
  /-- the connection, and whether its status is one of those that Connect keeps -/
  conn : Option Bool
  drain : Bool
  closeCh : Option ℕ
  channels : ℕ
  hooks : Bool
  /-- a connection has been made with them -/
  hooked : Bool
  lock : Option ℕ
  procs : ℕ → Proc

def newBroker : Broker where
  connected := false
  conn := none
  drain := false
  closeCh := none
  channels := 0
  hooks := false
  hooked := false
  lock := none
  procs _ := .idle

inductive Op where
  | init (i : ℕ)
  | connect (i : ℕ)
  | disconnect (i : ℕ)
  | callback (i : ℕ) (k : Callback)
  /-- the next statement of a goroutine; Connect makes its connection if `dials`, and its context if `creates` -/
  | proc (i : ℕ) (dials creates : Bool)
  /-- `i` sends to `j` -/
  | sync (i j : ℕ)
  | drop
deriving DecidableEq, Repr

def Broker.set (s : Broker) (i : ℕ) (p : Proc) : Broker := { s with procs := Function.update s.procs i p }

def connect (jetStream : Bool) (s : Broker) (dials creates : Bool) : Broker :=
  if s.connected = true then s
  else if s.conn = some true then { s with connected := true }
  else if dials = false then s
  else
    let s' := { s with hooked := s.hooked || s.hooks }
    if jetStream = true ∧ creates = false then { s' with conn := some false }
    else { s' with conn := some true, connected := true }

/-- the lock is taken in the same step as `b.drain` is read; the client's `Drain` only leads to callbacks -/
def advance (jetStream : Bool) (s : Broker) (i : ℕ) (dials creates : Bool) : Proc → Broker
  | .init => { s with drain := true }.set i .make
  | .make => { s with closeCh := some s.channels, channels := s.channels + 1 }.set i .hook
  | .hook => { s with hooks := true }.set i .idle
  | .connect => if s.lock = none then (connect jetStream s dials creates).set i .idle else s
  | .disconnect =>
    if s.lock = none then { s with lock := some i }.set i (if s.drain = true then .drain else .close) else s
  | .drain => s.set i (if s.closeCh ≠ none then .send s.closeCh else .close)
  | .close => { s with conn := s.conn.map fun _ => false, connected := false, lock := none }.set i .idle
  | .callback k => s.set i (if k.sends = true then .report s.closeCh else .idle)
  | .idle | .send _ | .report _ => s

def sync (s : Broker) (i j : ℕ) : Broker :=
  match (s.procs i).sendsTo, (s.procs j).receivesFrom with
  | some c, some c' => if c = c' then s.set i (s.procs i).sent else s
  | _, _ => s

/-- a step that is not possible changes nothing; any hooked connection may call back at any time -/
def step (jetStream : Bool) (s : Broker) : Op → Broker
  | .init i => if s.procs i = .idle then s.set i .init else s
  | .connect i => if s.procs i = .idle then s.set i .connect else s
  | .disconnect i => if s.procs i = .idle then s.set i .disconnect else s
  | .callback i k => if s.procs i = .idle ∧ s.hooked = true then s.set i (.callback k) else s
  | .proc i dials creates => advance jetStream s i dials creates (s.procs i)
  | .sync i j => sync s i j
  | .drop => { s with conn := s.conn.map fun _ => false }

/-! ## The property and the condition -/

def Proc.isCallback : Proc → Bool
  | .callback _ | .report _ => true
  | _ => false

/-- the goroutine holds the lock or is a callback, and moves no further in any run -/
def Stuck (jetStream : Bool) (s : Broker) (i : ℕ) : Prop :=
  (s.lock = some i ∨ (s.procs i).isCallback = true) ∧
    ∀ ops, (run (step jetStream) s ops).procs i = s.procs i

def Proc.locked : Proc → Bool
  | .drain | .send _ | .close => true
  | _ => false

@[simp] def Proc.sending : Proc → Bool
  | .send _ | .report _ => true
  | _ => false

/-- no Disconnect finds the channel made, and no callback sends -/
def Unsent (s : Broker) : Op → Prop
  | .proc i _ _ =>
    (s.procs i = .drain → s.closeCh = none) ∧ ∀ k, s.procs i = .callback k → k.sends = false
  | _ => True

def Inv (s : Broker) : Prop := ∀ i, (s.procs i).locked = true ↔ s.lock = some i

/-! ## One step -/

section

variable {jetStream : Bool} {s : Broker}

/-- **Nobody receives.** -/
theorem receivesFrom_eq_none (p : Proc) : p.receivesFrom = none := by
  cases p <;> rfl

theorem sync_eq (i j : ℕ) : sync s i j = s := by
  unfold sync
  rw [receivesFrom_eq_none]
  cases (s.procs i).sendsTo <;> rfl

@[simp] theorem connect_procs (dials creates : Bool) : (connect jetStream s dials creates).procs = s.procs := by
  unfold connect
  split_ifs <;> rfl

@[simp] theorem connect_lock (dials creates : Bool) : (connect jetStream s dials creates).lock = s.lock := by
  unfold connect
  split_ifs <;> rfl

variable {i : ℕ}

theorem advance_of_sending {p : Proc} (h : p.sending) (dials creates : Bool) :
    advance jetStream s i dials creates p = s := by
  cases p <;> simp at h <;> rfl

theorem advance_of_ne {j : ℕ} (h : i ≠ j) (p : Proc) (dials creates : Bool) :
    (advance jetStream s j dials creates p).procs i = s.procs i := by
  cases p <;> simp only [advance]
  all_goals try split_ifs
  all_goals simp [Broker.set, h]

theorem send_step (h : (s.procs i).sending) (op : Op) : (step jetStream s op).procs i = s.procs i := by
  have hset : ∀ (j : ℕ) (p : Proc), s.procs j = .idle → (s.set j p).procs i = s.procs i := by
    intro j p hj
    have hij : i ≠ j := by
      rintro rfl
      simp [hj] at h
    simp [Broker.set, hij]
  cases op with
  | proc j dials creates =>
    by_cases hij : i = j
    · rw [step, ← hij, advance_of_sending h]
    · exact advance_of_ne hij _ dials creates
  | sync j l => rw [step, sync_eq]
  | drop => rfl
  | _ =>
    simp only [step]
    split_ifs with hj
    · exact hset _ _ (by simp [hj])
    · rfl

theorem send_run (h : (s.procs i).sending) (ops : List Op) : (run (step jetStream) s ops).procs i = s.procs i :=
  run_inv (I := fun t : Broker => t.procs i = s.procs i) (fun _ op ht => (send_step (ht ▸ h) op).trans ht) rfl ops

/-! ## Who has the lock -/

theorem inv_new : Inv newBroker := by
  intro i
  simp [newBroker, Proc.locked]

theorem Inv.set (h : Inv s) {p : Proc} (hp : p.locked = (s.procs i).locked) : Inv (s.set i p) :=
  (Function.forall_update_iff s.procs fun j p => p.locked ↔ s.lock = some j).2
    ⟨by rw [hp]; exact h i, fun j _ => h j⟩

theorem Inv.acquire (h : Inv s) (hl : s.lock = none) {p : Proc} (hp : p.locked) :
    Inv ({ s with lock := some i }.set i p) := by
  refine (Function.forall_update_iff s.procs fun j p => p.locked ↔ some i = some j).2
    ⟨by simp [hp], fun j hj => ?_⟩
  rw [h j, hl]
  simp [Ne.symm hj]

theorem Inv.release (h : Inv s) (hi : (s.procs i).locked) : Inv ({ s with lock := none }.set i .idle) := by
  refine (Function.forall_update_iff s.procs fun j p => p.locked ↔ none = some j).2
    ⟨by simp [Proc.locked], fun j hj => ?_⟩
  rw [h j, (h i).1 hi]
  simp [Ne.symm hj]

theorem inv_advance (h : Inv s) (i : ℕ) (dials creates : Bool) :
    Inv (advance jetStream s i dials creates (s.procs i)) := by
  cases hp : s.procs i with
  | init => exact Inv.set (s := { s with drain := true }) h (by rw [hp]; rfl)
  | make =>
    exact Inv.set (s := { s with closeCh := some s.channels, channels := s.channels + 1 }) h (by rw [hp]; rfl)
  | hook => exact Inv.set (s := { s with hooks := true }) h (by rw [hp]; rfl)
  | connect =>
    simp only [advance]
    split_ifs
    · refine Inv.set (fun j => ?_) (by rw [connect_procs, hp]; rfl)
      rw [connect_procs, connect_lock]
      exact h j
    · exact h
  | disconnect =>
    simp only [advance]
    split_ifs with hl
    · exact h.acquire hl rfl
    · exact h.acquire hl rfl
    · exact h
  | close =>
    exact Inv.release (s := { s with conn := s.conn.map fun _ => false, connected := false }) h (by rw [hp]; rfl)
  | drain | callback k =>
    simp only [advance]
    split_ifs
    · exact h.set (by rw [hp]; rfl)
    · exact h.set (by rw [hp]; rfl)
  | idle | send c | report c => exact h

theorem inv_step (h : Inv s) (op : Op) : Inv (step jetStream s op) := by
  cases op with
  | proc i dials creates => exact inv_advance h i dials creates
  | sync i j =>
    rw [step, sync_eq]
    exact h
  | drop => exact h
  | _ =>
    simp only [step]
    split_ifs with hi
    · exact h.set (by simp [hi, Proc.locked])
    · exact h

/-! ## Who is blocked -/

theorem not_stuck (h : Inv s) (hi : (s.procs i).sending = false) : ¬ Stuck jetStream s i := by
  rintro ⟨hheld, hstays⟩
  have hmove := hstays [.proc i true true]
  simp only [run_cons, step] at hmove
  rw [← h i] at hheld
  cases hp : s.procs i with
  | drain | callback k =>
    rw [hp] at hmove
    simp only [advance] at hmove
    split_ifs at hmove <;> simp [Broker.set] at hmove
  | close =>
    rw [hp] at hmove
    simp [advance, Broker.set] at hmove
  | send c | report c => simp [hp] at hi
  | _ => simp [hp, Proc.locked, Proc.isCallback] at hheld

theorem stuck_iff (h : Inv s) (i : ℕ) : Stuck jetStream s i ↔ (s.procs i).sending := by
  constructor
  · intro hstuck
    by_contra hi
    exact not_stuck h (Bool.eq_false_iff.2 hi) hstuck
  · intro hi
    refine ⟨?_, send_run hi⟩
    cases hp : s.procs i with
    | send c => exact Or.inl ((h i).1 (by rw [hp]; rfl))
    | report c => exact Or.inr rfl
    | _ => simp [hp] at hi

theorem sending_set (h : ∀ i, (s.procs i).sending = false) (j : ℕ) (p : Proc) :
    (∀ i, ((s.set j p).procs i).sending = false) ↔ p.sending = false :=
  (Function.forall_update_iff s.procs fun _ p => p.sending = false).trans (and_iff_left fun i _ => h i)

theorem unsent_iff (h : ∀ i, (s.procs i).sending = false) (op : Op) :
    (∀ i, ((step jetStream s op).procs i).sending = false) ↔ Unsent s op := by
  cases op with
  | proc i dials creates =>
    simp only [step, Unsent]
    cases hp : s.procs i with
    | drain =>
      simp only [advance, sending_set h]
      by_cases hc : s.closeCh = none <;> simp [hc]
    | callback k =>
      simp only [advance, sending_set h]
      cases hk : k.sends <;> simp [hk]
    | connect =>
      refine iff_of_true ?_ (by simp)
      simp only [advance]
      split_ifs
      · exact (sending_set (by rw [connect_procs]; exact h) i _).2 rfl
      · exact h
    | disconnect =>
      refine iff_of_true ?_ (by simp)
      simp only [advance]
      split_ifs
      · exact (sending_set h i _).2 rfl
      · exact (sending_set h i _).2 rfl
      · exact h
    | init | make | hook | close => exact iff_of_true ((sending_set h i _).2 rfl) (by simp)
    | _ => exact iff_of_true h (by simp)
  | sync i j =>
    rw [step, sync_eq]
    exact iff_of_true h trivial
  | drop => exact iff_of_true h trivial
  | _ =>
    refine iff_of_true ?_ trivial
    simp only [step]
    split_ifs
    · exact (sending_set h _ _).2 rfl
    · exact h

end

/-- **When nobody is blocked.** For both brokers with the drain option and in every interleaving of calls and callbacks:
no state that is reached has a Disconnect or a callback that is blocked for ever, if and only if no Disconnect finds
`closeCh` made, once it has found `drain` set, and no callback is one of those that send. -/
theorem drain_iff (jetStream : Bool) (ops : List Op) :
    Always (step jetStream) (fun s => ∀ i, ¬ Stuck jetStream s i) newBroker ops ↔
      Along (step jetStream) Unsent newBroker ops := by
  have hfree : ∀ s, Inv s → ((∀ i, ¬ Stuck jetStream s i) ↔ ∀ i, (s.procs i).sending = false) := by
    intro s h
    simp only [stuck_iff h, Bool.not_eq_true]
  refine always_iff_along_of_iff (I := Inv) (fun _ op h => inv_step h op) (fun s op h hs => ?_) inv_new ?_ ops
  · rw [hfree _ (inv_step h op)]
    exact unsent_iff ((hfree s h).1 hs) op
  · rw [hfree _ inv_new]
    exact fun _ => rfl

def connected (jetStream : Bool) (ops : List Op) : Broker :=
  run (step jetStream) newBroker
    ([.init 1, .proc 1 true true, .proc 1 true true, .proc 1 true true, .connect 1, .proc 1 true true] ++ ops)

def disconnects : List Op := [.disconnect 1, .proc 1 true true, .proc 1 true true]

/-- the connection ends by itself, and its callback comes to its send -/
def closes : List Op := [.drop, .callback 2 .onClose, .proc 2 true true]

/-- **The drain option blocks**, for both brokers: the send of Disconnect has no receiver and the lock is never given
back, and nor has that of the callback of a connection that ends by itself. -/
theorem drain_blocks :
    (Stuck false (connected false disconnects) 1 ∧ Stuck true (connected true disconnects) 1) ∧
      Stuck false (connected false closes) 2 ∧ Stuck true (connected true closes) 2 := by
  refine ⟨⟨⟨Or.inl ?_, send_run ?_⟩, Or.inl ?_, send_run ?_⟩, ⟨Or.inr ?_, send_run ?_⟩, Or.inr ?_, send_run ?_⟩
  all_goals decide

end LuluExt.Nats
