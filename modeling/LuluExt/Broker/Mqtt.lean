/-
The MQTT broker: Connect, Subscribe, Disconnect, and the loop that reconnects after a loss.

The client (paho) is configured without automatic reconnection. After a loss it starts `onConnectionLost` on a goroutine
of its own, and `loopConnect` calls `client.Connect` until it has no error; nothing stops that loop. After a successful
connection the client starts `onConnect`, which takes the subscribers of the registry and subscribes to each again.
`Disconnect` does nothing unless the client is connected. Otherwise it calls `client.Disconnect(0)`, which leaves the
work to a goroutine and may return before it, and clears the registry.

Any number of callers, loops and callbacks run interleaved. Each access to the client or the registry is one step. An
attempt to connect is under way from `client.Connect` until its token completes. A `client.Disconnect` in between gives
it up: the client stays disconnected, and the token completes without an error if the server had answered. What the
client does (`Status`, the steps that change it, and when it starts its callbacks) is assumed here: it is the library's.

- `final_iff`: nothing is connected or subscribed again before the next Connect exactly when the state is `Settled`;
- `Alone.settled`: Disconnect of a client that is connected settles it, with no loop and no other call under way.
-/
import LuluExt.Lib.Run

namespace LuluExt.Mqtt

open Run

/-! ## Model -/

inductive Caller where
  | user (i : ℕ)
  | loop (k : ℕ)
deriving DecidableEq, Repr

inductive Status where
  | disconnected
  | connecting (c : Caller) (aborted : Bool)
  | connected
  /-- the loss is being handled, `onConnectionLost` has not been started -/
  | losing
deriving DecidableEq, Repr

inductive Proc where
  | idle
  /-- Connect, before `client.Connect` -/
  | connect
  /-- Connect, in `token.Wait` -/
  | waiting
  /-- Subscribe, before `client.Subscribe` -/
  | subscribe (topic : String)
  /-- Subscribe, before `subscribers.Add` -/
  | add (topic : String)
  /-- Disconnect, before `client.Disconnect` -/
  | disconnect
  /-- Disconnect, before the registry is cleared -/
  | clear
  /-- Disconnect, before it returns -/
  | leave
deriving DecidableEq, Repr

inductive Loop where
  /-- before `client.Connect` -/
  | attempt
  | waiting
deriving DecidableEq, Repr

inductive Callback where
  /-- before `subscribers.Foreach` copies the registry -/
  | begun
  | resubscribe (todo : List String)
deriving DecidableEq, Repr

/-- loops are numbered as the losses that start them, callbacks as the connections -/
structure Broker where
  status : Status
  registry : List String
  procs : ℕ → Proc
  losses : ℕ
  loops : ℕ → Option Loop
  connections : ℕ
  callbacks : ℕ → Option Callback
  /-- the goroutines of `client.Disconnect` that have not run -/
  quits : ℕ
  /-- the topics that `onConnect` has subscribed to -/
  resubscribed : List String

def newBroker : Broker where
  status := .disconnected
  registry := []
  procs _ := .idle
  losses := 0
  loops _ := none
  connections := 0
  callbacks _ := none
  quits := 0
  resubscribed := []

inductive Op where
  | connect (i : ℕ)
  | subscribe (i : ℕ) (topic : String)
  | disconnect (i : ℕ)
  /-- the next statement of a call, with the server's answer -/
  | proc (i : ℕ) (ok : Bool)
  | loop (k : ℕ)
  | attempt (ok : Bool)
  | lose
  | lost
  | quit
  | copy (n : ℕ)
  /-- `onConnect` subscribes to one of the topics that it has copied -/
  | resubscribe (n : ℕ) (topic : String)
deriving DecidableEq, Repr

@[simp] def Broker.set (s : Broker) (i : ℕ) (p : Proc) : Broker := { s with procs := Function.update s.procs i p }

@[simp] def Broker.setLoop (s : Broker) (k : ℕ) (l : Option Loop) : Broker :=
  { s with loops := Function.update s.loops k l }

def Broker.setCallback (s : Broker) (n : ℕ) (c : Option Callback) : Broker :=
  { s with callbacks := Function.update s.callbacks n c }

/-- the first statement of each call is `client.IsConnected` -/
def connect (s : Broker) (i : ℕ) : Broker := if s.status = .connected then s else s.set i .connect

def subscribe (s : Broker) (i : ℕ) (topic : String) : Broker :=
  if s.status = .connected then s.set i (.subscribe topic) else s

def disconnect (s : Broker) (i : ℕ) : Broker :=
  s.set i (if s.status = .connected then .disconnect else .leave)

/-- `client.Connect` has an error unless the client is disconnected -/
def advance (s : Broker) (i : ℕ) (ok : Bool) : Proc → Broker
  | .connect =>
    if s.status = .disconnected then { s with status := .connecting (.user i) false }.set i .waiting else s.set i .idle
  | .subscribe topic => s.set i (if s.status = .connected ∧ ok = true then .add topic else .idle)
  | .add topic => { s with registry := s.registry.insert topic }.set i .idle
  | .disconnect => { s with quits := s.quits + 1 }.set i .clear
  | .clear => { s with registry := [] }.set i .leave
  | .leave => s.set i .idle
  | .idle | .waiting => s

def loopConnect (s : Broker) (k : ℕ) : Broker :=
  if s.loops k = some .attempt ∧ s.status = .disconnected then
    { s with status := .connecting (.loop k) false }.setLoop k (some .waiting)
  else s

/-- the token completes: a call of Connect returns, and so does the loop if there is no error -/
@[simp] def Broker.answer (s : Broker) (ok : Bool) : Caller → Broker
  | .user i => s.set i .idle
  | .loop k => s.setLoop k (if ok = true then none else some .attempt)

def attempt (s : Broker) (ok : Bool) : Broker :=
  match s.status with
  | .connecting c aborted =>
    if ok = true ∧ aborted = false then
      ({ s with status := .connected, connections := s.connections + 1 }.setCallback s.connections
        (some .begun)).answer ok c
    else { s with status := .disconnected }.answer ok c
  | _ => s

/-- what `client.Disconnect` makes of the client -/
def Status.quit : Status → Status
  | .connected => .disconnected
  | .connecting c _ => .connecting c true
  | .disconnected => .disconnected
  | .losing => .losing

def quit (s : Broker) : Broker :=
  if s.quits = 0 then s else { s with quits := s.quits - 1, status := s.status.quit }

def onConnect (s : Broker) (n : ℕ) : Broker :=
  if s.callbacks n = some .begun then s.setCallback n (some (.resubscribe s.registry)) else s

/-- `client.Subscribe` has an error unless the client is connected -/
def Broker.subscribeAgain (s : Broker) (topic : String) : Broker :=
  if s.status = .connected then { s with resubscribed := topic :: s.resubscribed } else s

def resubscribe (s : Broker) (n : ℕ) (topic : String) : Broker :=
  match s.callbacks n with
  | some (.resubscribe todo) =>
    if topic ∈ todo then (s.subscribeAgain topic).setCallback n (some (.resubscribe (todo.erase topic))) else s
  | _ => s

/-- a step that is not possible changes nothing -/
def step (s : Broker) : Op → Broker
  | .connect i => if s.procs i = .idle then connect s i else s
  | .subscribe i topic => if s.procs i = .idle then subscribe s i topic else s
  | .disconnect i => if s.procs i = .idle then disconnect s i else s
  | .proc i ok => advance s i ok (s.procs i)
  | .loop k => loopConnect s k
  | .attempt ok => attempt s ok
  | .lose => if s.status = .connected then { s with status := .losing } else s
  | .lost =>
    if s.status = .losing then
      { s with status := .disconnected, losses := s.losses + 1 }.setLoop s.losses (some .attempt)
    else s
  | .quit => quit s
  | .copy n => onConnect s n
  | .resubscribe n topic => resubscribe s n topic

/-! ## The property and the condition -/

def Returns (s : Broker) : Op → Prop
  | .proc i _ => s.procs i = .leave
  | _ => False

instance (s : Broker) : DecidablePred (Returns s)
  | .proc i _ => inferInstanceAs (Decidable (s.procs i = .leave))
  | .connect _ | .subscribe _ _ | .disconnect _ | .loop _ | .attempt _ | .lose | .lost | .quit | .copy _
  | .resubscribe _ _ => isFalse not_false

def Op.isConnect : Op → Bool
  | .connect _ => true
  | _ => false

/-- what has happened from `s` to `t` -/
structure Quiet (s t : Broker) : Prop where
  connections : t.connections = s.connections
  resubscribed : t.resubscribed = s.resubscribed
  registry : t.registry = []

/-- until the next call of Connect -/
def Final (s : Broker) : Prop := ∀ ops : List Op, (∀ op ∈ ops, op.isConnect = false) → Quiet s (run step s ops)

/-- nobody is left who connects or fills the registry: no loop runs, no call of Connect is before its attempt, no call
of Subscribe before `Add`, and an attempt under way is one of Connect that has been given up -/
structure Settled (s : Broker) : Prop where
  registry : s.registry = []
  status : s.status = .disconnected ∨ ∃ i, s.status = .connecting (.user i) true
  loops : ∀ k, s.loops k = none
  procs : ∀ i, s.procs i ≠ .connect ∧ ∀ topic, s.procs i ≠ .add topic

/-- the client is connected, and no loop and no call is under way -/
structure Alone (s : Broker) : Prop where
  status : s.status = .connected
  loops : ∀ k, s.loops k = none
  procs : ∀ i, s.procs i = .idle

/-- a call of Disconnect from its check to its return; the goroutine of `client.Disconnect` runs before it returns -/
def disconnects (i : ℕ) : List Op := [.disconnect i, .proc i true, .quit, .proc i true, .proc i true]

@[simp] def Broker.Waits (s : Broker) : Caller → Prop
  | .user i => s.procs i = .waiting
  | .loop k => s.loops k = some .waiting

/-- whoever waits for a token is the one whose attempt is under way -/
def Inv (s : Broker) : Prop := ∀ c, s.Waits c ↔ ∃ aborted, s.status = .connecting c aborted

/-! ## Whose attempt is under way -/

section

variable {s : Broker}

theorem inv_new : Inv newBroker := by
  rintro (i | k) <;> simp [newBroker]

theorem Inv.set (h : Inv s) {i : ℕ} {p : Proc} (hi : s.procs i ≠ .waiting) (hp : p ≠ .waiting) : Inv (s.set i p) := by
  rintro (j | k)
  · refine Iff.trans ?_ (h (.user j))
    by_cases hj : j = i
    · subst hj
      simp [hi, hp]
    · simp [hj]
  · exact h (.loop k)

/-- an attempt of one caller begins or ends -/
theorem Inv.change (h : Inv s) (c : Caller) {t : Broker} (hc : t.Waits c ↔ ∃ aborted, t.status = .connecting c aborted)
    (hothers : ∀ c' ≠ c, (t.Waits c' ↔ s.Waits c') ∧
      ∀ aborted, s.status ≠ .connecting c' aborted ∧ t.status ≠ .connecting c' aborted) : Inv t := by
  intro c'
  by_cases heq : c' = c
  · rwa [heq]
  · obtain ⟨hwaits, hstatus⟩ := hothers c' heq
    rw [hwaits, h c']
    simp [hstatus]

theorem Inv.answer (h : Inv s) {c : Caller} {aborted : Bool} (hs : s.status = .connecting c aborted) {t : Status}
    (ht : ∀ c aborted, t ≠ .connecting c aborted) (ok : Bool) : Inv ({ s with status := t }.answer ok c) := by
  refine h.change c ?_ ?_
  · cases c <;> cases ok <;> simp [ht]
  · rintro (i | k) hne <;> cases c <;> simp_all [Ne.symm hne]

theorem inv_advance (h : Inv s) (i : ℕ) (ok : Bool) : Inv (advance s i ok (s.procs i)) := by
  cases hp : s.procs i with
  | idle | waiting => exact h
  | connect =>
    simp only [advance]
    split_ifs with hs
    · refine h.change (.user i) (by simp) ?_
      rintro (j | k) hne <;> simp_all [Ne.symm hne]
    · exact h.set (by simp [hp]) (by simp)
  | subscribe topic => exact h.set (by simp [hp]) (by split_ifs <;> simp)
  | add topic => exact Inv.set (s := { s with registry := s.registry.insert topic }) h (by simp [hp]) (by simp)
  | disconnect => exact Inv.set (s := { s with quits := s.quits + 1 }) h (by simp [hp]) (by simp)
  | clear => exact Inv.set (s := { s with registry := [] }) h (by simp [hp]) (by simp)
  | leave => exact h.set (by simp [hp]) (by simp)

theorem inv_attempt (h : Inv s) (ok : Bool) : Inv (attempt s ok) := by
  unfold attempt
  split
  next c aborted hs =>
    split_ifs
    · exact Inv.answer (s := { s with connections := s.connections + 1 }.setCallback s.connections (some .begun))
        (t := .connected) h hs (by simp) ok
    · exact h.answer hs (by simp) ok
  next => exact h

theorem inv_quit (h : Inv s) : Inv (quit s) := by
  unfold quit
  split_ifs
  · exact h
  · intro c
    refine (h c).trans ?_
    cases s.status <;> simp [Status.quit]

theorem inv_resubscribe (h : Inv s) (n : ℕ) (topic : String) : Inv (resubscribe s n topic) := by
  unfold resubscribe Broker.subscribeAgain
  repeat' split
  all_goals exact h

theorem inv_step (h : Inv s) (op : Op) : Inv (step s op) := by
  cases op with
  | connect i =>
    refine guard_inv h fun hi => ?_
    unfold connect
    split_ifs
    · exact h
    · exact h.set (by simp [hi]) (by simp)
  | subscribe i topic => exact guard_inv h fun hi => guard_inv h fun _ => h.set (by simp [hi]) (by simp)
  | disconnect i => exact guard_inv h fun hi => h.set (by simp [hi]) (by split_ifs <;> simp)
  | proc i ok => exact inv_advance h i ok
  | loop k =>
    refine guard_inv h fun hk => h.change (.loop k) (by simp) ?_
    rintro (i | j) hne <;> simp_all [Ne.symm hne]
  | attempt ok => exact inv_attempt h ok
  | lose => exact guard_inv h fun hs => fun c => (h c).trans (by simp [hs])
  | lost =>
    refine guard_inv h fun hs => h.change (.loop s.losses) (by simp) ?_
    rintro (i | j) hne <;> simp_all
  | quit => exact inv_quit h
  | copy n => exact guard_inv h fun _ => h
  | resubscribe n topic => exact inv_resubscribe h n topic

/-! ## What a settled broker does -/

theorem Settled.not_connected (h : Settled s) : s.status ≠ .connected := by
  rcases h.status with hs | ⟨i, hs⟩ <;> simp [hs]

theorem Settled.set (h : Settled s) {i : ℕ} {p : Proc} (hp : p ≠ .connect ∧ ∀ topic, p ≠ .add topic) :
    Settled (s.set i p) := by
  refine ⟨h.registry, h.status, h.loops, ?_⟩
  exact (Function.forall_update_iff s.procs fun _ p => p ≠ .connect ∧ ∀ topic, p ≠ .add topic).2
    ⟨hp, fun j _ => h.procs j⟩

theorem settled_advance (h : Settled s) (i : ℕ) (ok : Bool) : Settled (advance s i ok (s.procs i)) := by
  cases hp : s.procs i with
  | idle | waiting => exact h
  | connect => exact absurd hp (h.procs i).1
  | subscribe topic => exact h.set (by simp [h.not_connected])
  | add topic => exact absurd hp ((h.procs i).2 topic)
  | disconnect =>
    exact Settled.set (s := { s with quits := s.quits + 1 }) ⟨h.registry, h.status, h.loops, h.procs⟩ (by simp)
  | clear => exact Settled.set (s := { s with registry := [] }) ⟨rfl, h.status, h.loops, h.procs⟩ (by simp)
  | leave => exact h.set (by simp)

theorem settled_attempt (h : Settled s) (ok : Bool) : Settled (attempt s ok) := by
  unfold attempt
  rcases h.status with hs | ⟨i, hs⟩
  · rw [hs]
    exact h
  · rw [hs]
    simp only [Bool.true_eq_false, and_false]
    exact Settled.set (s := { s with status := .disconnected }) ⟨h.registry, Or.inl rfl, h.loops, h.procs⟩ (by simp)

theorem settled_quit (h : Settled s) : Settled (quit s) := by
  unfold quit
  split_ifs
  · exact h
  · refine ⟨h.registry, ?_, h.loops, h.procs⟩
    rcases h.status with hs | ⟨i, hs⟩
    · exact Or.inl (by simp [hs, Status.quit])
    · exact Or.inr ⟨i, by simp [hs, Status.quit]⟩

theorem settled_resubscribe (h : Settled s) (n : ℕ) (topic : String) : Settled (resubscribe s n topic) := by
  unfold resubscribe Broker.subscribeAgain
  repeat' split
  all_goals exact ⟨h.registry, h.status, h.loops, h.procs⟩

theorem settled_step (h : Settled s) {op : Op} (hop : op.isConnect = false) : Settled (step s op) := by
  cases op with
  | connect i => exact Bool.noConfusion hop
  | subscribe i topic =>
    simp only [step, subscribe, h.not_connected, if_false, ite_self]
    exact h
  | disconnect i =>
    simp only [step, disconnect, h.not_connected, if_false]
    exact guard_inv h fun _ => h.set (by simp)
  | proc i ok => exact settled_advance h i ok
  | loop k =>
    simp only [step, loopConnect, h.loops k]
    exact h
  | attempt ok => exact settled_attempt h ok
  | lose =>
    simp only [step, h.not_connected]
    exact h
  | lost =>
    have hs : s.status ≠ .losing := by
      rcases h.status with hs | ⟨i, hs⟩ <;> simp [hs]
    simp only [step, hs]
    exact h
  | quit => exact settled_quit h
  | copy n => exact guard_inv h fun _ => ⟨h.registry, h.status, h.loops, h.procs⟩
  | resubscribe n topic => exact settled_resubscribe h n topic

/-- a connection is made by an attempt that has not been given up, and a subscription by a client that is connected -/
theorem settled_seen (h : Settled s) (op : Op) :
    (step s op).connections = s.connections ∧ (step s op).resubscribed = s.resubscribed := by
  cases op with
  | attempt ok =>
    simp only [step, attempt]
    rcases h.status with hs | ⟨i, hs⟩ <;> simp [hs]
  | resubscribe n topic =>
    simp only [step, resubscribe, Broker.subscribeAgain, h.not_connected, if_false]
    repeat' split
    all_goals exact ⟨rfl, rfl⟩
  | proc i ok =>
    simp only [step]
    cases s.procs i <;> simp only [advance]
    all_goals repeat' split
    all_goals exact ⟨by trivial, by trivial⟩
  | _ =>
    simp only [step, connect, subscribe, loopConnect, quit, onConnect]
    repeat' split
    all_goals exact ⟨by trivial, by trivial⟩

theorem Settled.final (h : Settled s) : Final s := by
  intro ops hops
  induction ops generalizing s with
  | nil => exact ⟨rfl, rfl, h.registry⟩
  | cons op ops ih =>
    have hrest := ih (settled_step h (hops op List.mem_cons_self)) fun o ho => hops o (List.mem_cons_of_mem op ho)
    obtain ⟨hconn, hsub⟩ := settled_seen h op
    exact ⟨hrest.connections.trans hconn, hrest.resubscribed.trans hsub, hrest.registry⟩

theorem Alone.settled (h : Alone s) (i : ℕ) : Settled (run step s (disconnects i)) := by
  have hrun : run step s (disconnects i) =
      { s with status := .disconnected, registry := [] }.set i .idle := by
    simp [disconnects, step, disconnect, advance, quit, Status.quit, h.status, h.procs i]
  rw [hrun]
  refine Settled.set (s := { s with status := .disconnected, registry := [] }) ?_ (by simp)
  exact ⟨rfl, Or.inl rfl, h.loops, fun j => by simp [h.procs j]⟩

/-! ## What happens otherwise -/

theorem Final.next (h : Final s) {o : Op} (ho : o.isConnect = false) : Final (step s o) := by
  intro ops hops
  have hnow := h [o] (by simpa using ho)
  have hlater := h (o :: ops) (by simpa using ⟨ho, hops⟩)
  exact ⟨hlater.connections.trans hnow.connections.symm, hlater.resubscribed.trans hnow.resubscribed.symm,
    hlater.registry⟩

theorem Final.aborted (h : Final s) {c : Caller} {aborted : Bool} (hs : s.status = .connecting c aborted) :
    aborted := by
  cases aborted with
  | true => rfl
  | false =>
    have hconn := (h [.attempt true] (by simp [Op.isConnect])).connections
    cases c <;> simp [step, hs, attempt, Broker.setCallback] at hconn

theorem Final.no_attempt (h : Final s) (hs : s.status = .disconnected) :
    (∀ k, s.loops k ≠ some .attempt) ∧ ∀ i, s.procs i ≠ .connect := by
  constructor
  · intro k hk
    have hnext : (step s (.loop k)).status = .connecting (.loop k) false := by
      simp [step, loopConnect, hk, hs]
    exact Bool.noConfusion ((h.next rfl).aborted hnext)
  · intro i hi
    have hnext : (step s (.proc i true)).status = .connecting (.user i) false := by
      simp [step, advance, hi, hs]
    exact Bool.noConfusion ((h.next rfl).aborted hnext)

theorem Final.not_losing (h : Final s) : s.status ≠ .losing := by
  intro hs
  have hnext : step s .lost =
      { s with status := .disconnected, losses := s.losses + 1 }.setLoop s.losses (some .attempt) := if_pos hs
  refine ((h.next (o := .lost) rfl).no_attempt ?_).1 s.losses ?_
  · rw [hnext]
    rfl
  · rw [hnext]
    exact Function.update_self s.losses _ _

theorem Final.not_connected (h : Final s) : s.status ≠ .connected := by
  intro hs
  have hnext : step s .lose = { s with status := .losing } := if_pos hs
  refine (h.next (o := .lose) rfl).not_losing ?_
  rw [hnext]

theorem Final.status (h : Final s) : s.status = .disconnected ∨ ∃ i, s.status = .connecting (.user i) true := by
  cases hs : s.status with
  | disconnected => exact Or.inl rfl
  | connected => exact absurd hs h.not_connected
  | losing => exact absurd hs h.not_losing
  | connecting c aborted =>
    obtain rfl := h.aborted hs
    cases c with
    | user i => exact Or.inr ⟨i, rfl⟩
    | loop k =>
      have hnext : step s (.attempt false) = { s with status := .disconnected }.setLoop k (some .attempt) := by
        simp [step, attempt, hs]
      refine absurd ?_ (((h.next (o := .attempt false) rfl).no_attempt ?_).1 k)
      · rw [hnext]
        exact Function.update_self k _ _
      · rw [hnext]
        rfl

theorem Inv.no_loop (h : Inv s) {k : ℕ} (hs : ∀ aborted, s.status ≠ .connecting (.loop k) aborted)
    (hk : s.loops k ≠ some .attempt) : s.loops k = none := by
  cases hl : s.loops k with
  | none => rfl
  | some l =>
    cases l with
    | attempt => exact absurd hl hk
    | waiting =>
      obtain ⟨aborted, hwait⟩ := (h (.loop k)).1 hl
      exact absurd hwait (hs aborted)

theorem Final.nobody (h : Final s) (hinv : Inv s) : (∀ k, s.loops k = none) ∧ ∀ i, s.procs i ≠ .connect := by
  rcases h.status with hs | ⟨j, hs⟩
  · obtain ⟨hloops, hprocs⟩ := h.no_attempt hs
    exact ⟨fun k => hinv.no_loop (by simp [hs]) (hloops k), hprocs⟩
  · have hnext : step s (.attempt false) = { s with status := .disconnected }.set j .idle := by
      simp [step, attempt, hs]
    obtain ⟨hloops, hprocs⟩ := (h.next (o := .attempt false) rfl).no_attempt (by rw [hnext]; rfl)
    rw [hnext] at hloops hprocs
    refine ⟨fun k => hinv.no_loop (by simp [hs]) (hloops k), fun i hi => ?_⟩
    have hij : i ≠ j := by
      rintro rfl
      rw [(hinv (.user i)).2 ⟨true, hs⟩] at hi
      cases hi
    exact hprocs i (by simpa [hij] using hi)

theorem Final.not_add (h : Final s) (i : ℕ) (topic : String) : s.procs i ≠ .add topic := by
  intro hi
  have hreg : s.registry.insert topic = [] := by
    simpa [step, advance, hi] using (h [.proc i true] (by simp [Op.isConnect])).registry
  exact List.ne_nil_of_mem List.mem_insert_self hreg

theorem final_iff (hinv : Inv s) : Final s ↔ Settled s := by
  refine ⟨fun h => ?_, Settled.final⟩
  obtain ⟨hloops, hprocs⟩ := h.nobody hinv
  exact ⟨(h [] (by simp)).registry, h.status, hloops, fun i => ⟨hprocs i, h.not_add i⟩⟩

end

/-- **When Disconnect is final.** In every interleaving of losses, attempts, loops, callbacks and calls: after each
return of Disconnect and until the next Connect nothing is connected or subscribed to again and the registry is empty,
whatever happens, if and only if each of them returns with the broker settled. It does so after a Disconnect of a client
that is connected, if no loop and no other call is under way. -/
theorem disconnect_final_iff (ops : List Op) :
    (Along step (fun s op => Returns s op → Final (step s op)) newBroker ops ↔
      Along step (fun s op => Returns s op → Settled (step s op)) newBroker ops) ∧
    (Alone (run step newBroker ops) → ∀ i, Final (run step newBroker (ops ++ disconnects i))) := by
  constructor
  · exact along_congr (I := Inv) (H := fun _ _ => True) (fun _ op h _ => inv_step h op)
      (fun _ op h _ => imp_congr_right fun _ => final_iff (inv_step h op)) inv_new (along_true ops)
  · intro halone i
    rw [run_append]
    exact (halone.settled i).final

def connects (i : ℕ) : List Op := [.connect i, .proc i true, .attempt true]

def subscribes (i : ℕ) (topic : String) : List Op := [.subscribe i topic, .proc i true, .proc i true]

/-- the connection is lost and handled, and the first attempt of the loop fails -/
def outage (k : ℕ) : List Op := [.lose, .lost, .loop k, .attempt false]

/-- what the loop and `onConnect` do when the server is there again -/
def reconnects (k n : ℕ) (topic : String) : List Op := [.loop k, .attempt true, .copy n, .resubscribe n topic]

/-- **Reconnected after Disconnect**: during an outage, with the topic still in the registry; and where a call of
Connect has ended the outage and Disconnect the connection, but the loop still runs. -/
theorem connected_again :
    (∃ s, s = run step newBroker (connects 1 ++ subscribes 1 "orders" ++ outage 0 ++ [.disconnect 1]) ∧
      Returns s (.proc 1 true) ∧ ¬ Final (step s (.proc 1 true)) ∧
      (run step s (.proc 1 true :: reconnects 0 1 "orders")).resubscribed = ["orders"]) ∧
    ∃ s, s = run step newBroker (connects 1 ++ outage 0 ++ connects 1 ++
        [.disconnect 1, .proc 1 true, .quit, .proc 1 true]) ∧
      Returns s (.proc 1 true) ∧ ¬ Final (step s (.proc 1 true)) := by
  refine ⟨⟨_, rfl, by decide, fun hfinal => ?_, by decide⟩, ⟨_, rfl, by decide, fun hfinal => ?_⟩⟩
  · exact absurd (hfinal (reconnects 0 1 "orders") (by decide)).connections (by decide)
  · exact absurd (hfinal [.loop 0, .attempt true] (by decide)).connections (by decide)

end LuluExt.Mqtt
