/-
The loop of the Redis pub/sub subscriber, and Unsubscribe of the two subscribers that reconnect on their own.

The loop of the Redis subscriber looks at `closed` at its head and, if it has no connection, gets one from the pool,
subscribes and records it in `s.conn`, without looking at `closed` again. Unsubscribe unsubscribes the connection in
`s.conn`. If there is none, because the loop is between two connections, a new subscription can follow that nobody ends.

The statements of the loop, Unsubscribe, messages and pongs of the server, losses of connections, and what becomes of
the pool and the context are interleaved. The server answers an Unsubscribe after the replies that it has already sent,
and the loop returns when it receives that answer.
-/
import LuluExt.Broker.Rabbitmq.Resubscribe

namespace LuluExt.RedisPubsub

open Run Finality

/-! ## Model -/

inductive Reply where
  | message
  /-- a Subscription with a count of zero -/
  | unsubscribed
  /-- a Subscription with another count, or a Pong -/
  | other
deriving DecidableEq, Repr

inductive Pc where
  | check
  /-- before the look at `s.conn` -/
  | look
  | reconnecting
  /-- in `receiveLoop`, before its select -/
  | receiving
  /-- `receiveLoop` has returned, with an error or nil -/
  | closing (err : Bool)
  /-- the connection has been closed -/
  | ended (err : Bool)
  | sleeping
  | returned
deriving DecidableEq, Repr

structure Subscriber where
  closed : Bool
  conn : Option ℕ
  pc : Pc
  conns : ℕ
  alive : ℕ → Bool
  subscribed : ℕ → Bool
  /-- the replies that wait to be received -/
  inbox : ℕ → List Reply
  pool : Bool
  cancelled : Bool
  handled : List ℕ
  recorded : List ℕ

def initial : Subscriber where
  closed := false
  conn := some 0
  pc := .check
  conns := 1
  alive c := c = 0
  subscribed c := c = 0
  inbox c := if c = 0 then [.other] else []
  pool := true
  cancelled := false
  handled := []
  recorded := []

/-- what an iteration meets: a value in `pingErr`, an error of `Receive` or of the reconnection, or neither -/
inductive Event where
  | pingErr (err : Bool)
  | error
  | none
deriving DecidableEq, Repr

inductive Op where
  /-- a statement of `recv` -/
  | loop (e : Event)
  | unsubscribe
  | deliver (c : ℕ)
  | pong (c : ℕ)
  | lose (c : ℕ)
  | cancel
  | connect
  | disconnect
deriving DecidableEq, Repr

namespace Subscriber

def send (s : Subscriber) (c : ℕ) (r : Reply) : Subscriber :=
  { s with inbox := Function.update s.inbox c (s.inbox c ++ [r]) }

def reconnect (s : Subscriber) : Subscriber :=
  { s with
    pc := .receiving
    conn := some s.conns
    conns := s.conns + 1
    alive := Function.update s.alive s.conns true
    subscribed := Function.update s.subscribed s.conns true
    inbox := Function.update s.inbox s.conns [.other]
    recorded := s.recorded ++ [s.conns] }

def receive (s : Subscriber) (c : ℕ) : Subscriber :=
  match s.inbox c with
  | [] => if s.alive c then s else { s with pc := .closing true }
  | .message :: rest => { s with inbox := Function.update s.inbox c rest, handled := s.handled ++ [c] }
  | .unsubscribed :: rest => { s with inbox := Function.update s.inbox c rest, pc := .closing false }
  | .other :: rest => { s with inbox := Function.update s.inbox c rest }

/-- an iteration of `receiveLoop`; the health check sends an error of its ping, and nil when the context is cancelled -/
def receiveLoop (s : Subscriber) (e : Event) : Subscriber :=
  if e = .pingErr true then { s with pc := .closing true }
  else if e = .pingErr false ∧ s.cancelled = true then { s with pc := .closing false }
  else
    match s.conn with
    | none => { s with pc := .closing true }
    | some c => if e = .error then { s with pc := .closing true } else s.receive c

def recv (s : Subscriber) (e : Event) : Subscriber :=
  match s.pc with
  | .check => if s.closed then { s with pc := .returned } else { s with pc := .look }
  | .look => if s.conn.isSome then { s with pc := .receiving } else { s with pc := .reconnecting }
  | .reconnecting => if s.pool = true ∧ e = .none then s.reconnect else { s with pc := .sleeping }
  | .receiving => s.receiveLoop e
  | .closing err =>
    match s.conn with
    | none => { s with pc := .ended err }
    | some c =>
      { s with
        pc := .ended err
        conn := none
        alive := Function.update s.alive c false
        subscribed := Function.update s.subscribed c false }
  | .ended err => if err = false ∨ s.closed = true then { s with pc := .returned } else { s with pc := .sleeping }
  | .sleeping => if s.cancelled then { s with pc := .returned } else { s with pc := .check }
  | .returned => s

/-- the server answers it, if the connection is there, and sends no more messages -/
def unsubscribe (s : Subscriber) : Subscriber :=
  match s.conn with
  | none => { s with closed := true }
  | some c =>
    if s.alive c then
      { s.send c .unsubscribed with closed := true, subscribed := Function.update s.subscribed c false }
    else { s with closed := true }

end Subscriber

def step (s : Subscriber) : Op → Subscriber
  | .loop e => s.recv e
  | .unsubscribe => s.unsubscribe
  | .deliver c => if s.alive c = true ∧ s.subscribed c = true then s.send c .message else s
  | .pong c => if s.alive c then s.send c .other else s
  | .lose c =>
    { s with
      alive := Function.update s.alive c false
      subscribed := Function.update s.subscribed c false }
  | .cancel => { s with cancelled := true }
  | .connect => { s with pool := true }
  | .disconnect => { s with pool := false }

def own : Op → Bool
  | .loop _ => true
  | _ => false

def view (s : Subscriber) : View := ⟨s.handled, s.recorded, s.subscribed, s.pc = .returned⟩

/-- after the look at `closed`, without a connection -/
def Window (s : Subscriber) : Prop := s.pc = .look ∧ s.conn = none ∨ s.pc = .reconnecting

def unsubscribed (s : Subscriber) : Subscriber := { s.unsubscribe with handled := [], recorded := [] }

/-! ## Outside the window -/

/-- the answer to Unsubscribe is on its way, or the connection is lost -/
def Answered (s : Subscriber) (c : ℕ) : Prop := .unsubscribed ∈ s.inbox c ∨ s.alive c = false

def ahead : List Reply → ℕ
  | [] => 0
  | .unsubscribed :: _ => 0
  | .message :: rest => ahead rest + 1
  | .other :: rest => ahead rest + 1

theorem ahead_append {l : List Reply} (h : .unsubscribed ∈ l) (l' : List Reply) : ahead (l ++ l') = ahead l := by
  induction l with
  | nil => cases h
  | cons r l ih =>
    cases r with
    | unsubscribed => rfl
    | message | other => exact congrArg (· + 1) (ih ((List.mem_cons.1 h).resolve_left nofun))

section

variable {s : Subscriber} {c : ℕ} {e : Event}

structure Others (s t : Subscriber) : Prop where
  pc : t.pc = s.pc
  conn : t.conn = s.conn
  handled : t.handled = s.handled
  recorded : t.recorded = s.recorded
  closed : s.closed = true → t.closed = true
  answered : ∀ c, Answered s c → Answered t c ∧ ahead (t.inbox c) = ahead (s.inbox c)

theorem answered_send (halive : s.alive c) (r : Reply) (d : ℕ) (h : Answered s d) :
    Answered (s.send c r) d ∧ ahead ((s.send c r).inbox d) = ahead (s.inbox d) := by
  by_cases hd : d = c
  · subst hd
    have hmem : .unsubscribed ∈ s.inbox d := h.resolve_right (by simp [halive])
    have hinbox : (s.send d r).inbox d = s.inbox d ++ [r] := by simp [Subscriber.send]
    rw [Answered, hinbox]
    exact ⟨.inl (List.mem_append_left _ hmem), ahead_append hmem _⟩
  · have hinbox : (s.send c r).inbox d = s.inbox d := by simp [Subscriber.send, hd]
    rw [Answered, hinbox]
    exact ⟨h, rfl⟩

theorem others_step {op : Op} (h : own op = false) (s : Subscriber) : Others s (step s op) := by
  cases op with
  | loop e => cases h
  | unsubscribe =>
    simp only [step, Subscriber.unsubscribe]
    split
    · exact ⟨rfl, rfl, rfl, rfl, fun _ => rfl, fun _ h => ⟨h, rfl⟩⟩
    · next c hc =>
      split_ifs with halive
      · exact ⟨rfl, rfl, rfl, rfl, fun _ => rfl, answered_send halive .unsubscribed⟩
      · exact ⟨rfl, rfl, rfl, rfl, fun _ => rfl, fun _ h => ⟨h, rfl⟩⟩
  | deliver c =>
    simp only [step]
    split_ifs with hlive
    · exact ⟨rfl, rfl, rfl, rfl, id, answered_send hlive.1 .message⟩
    · exact ⟨rfl, rfl, rfl, rfl, id, fun _ h => ⟨h, rfl⟩⟩
  | pong c =>
    simp only [step]
    split_ifs with halive
    · exact ⟨rfl, rfl, rfl, rfl, id, answered_send halive .other⟩
    · exact ⟨rfl, rfl, rfl, rfl, id, fun _ h => ⟨h, rfl⟩⟩
  | lose c =>
    refine ⟨rfl, rfl, rfl, rfl, id, fun d h => ⟨h.imp_right fun hd => ?_, rfl⟩⟩
    by_cases hdc : d = c
    · simp [step, hdc]
    · simpa [step, hdc] using hd
  | cancel | connect | disconnect => exact ⟨rfl, rfl, rfl, rfl, id, fun _ h => ⟨h, rfl⟩⟩

/-- what is left to do for the loop, once unsubscribed -/
@[simp] def Subscriber.left (s : Subscriber) : ℕ :=
  match s.pc with
  | .returned => 0
  | .check => 1
  | .ended _ => 1
  | .sleeping => 2
  | .closing _ => 2
  | .receiving => (s.conn.elim 0 fun c => ahead (s.inbox c)) + 3
  | .look => (s.conn.elim 0 fun c => ahead (s.inbox c)) + 4
  | .reconnecting => 0

/-- the connection that is looked at or received from, if there is one, is answered -/
def Expecting (s : Subscriber) : Prop := s.pc = .look ∨ s.pc = .receiving → ∀ c, s.conn = some c → Answered s c

structure Settled (s : Subscriber) : Prop where
  closed : s.closed = true
  outside : ¬ Window s
  expecting : Expecting s
  unrecorded : s.recorded = []

theorem Settled.others {t : Subscriber} (h : Settled s) (ht : Others s t) : Settled t where
  closed := ht.closed h.closed
  outside := by
    rw [Window, ht.pc, ht.conn]
    exact h.outside
  expecting hpc c hc := by
    rw [ht.pc] at hpc
    rw [ht.conn] at hc
    exact (ht.answered c (h.expecting hpc c hc)).1
  unrecorded := ht.recorded.trans h.unrecorded

theorem left_others {t : Subscriber} (h : Settled s) (ht : Others s t) : t.left = s.left := by
  have hsame : s.pc = .look ∨ s.pc = .receiving → t.conn.elim 0 (fun c => ahead (t.inbox c)) =
      s.conn.elim 0 fun c => ahead (s.inbox c) := by
    intro hpc
    rw [ht.conn]
    cases hc : s.conn with
    | none => rfl
    | some c => exact (ht.answered c (h.expecting hpc c hc)).2
  unfold Subscriber.left
  rw [ht.pc]
  cases hpc : s.pc with
  | look => simp only [hsame (.inl hpc)]
  | receiving => simp only [hsame (.inr hpc)]
  | _ => rfl

theorem Settled.move (h : Settled s) {pc : Pc} (hpc : pc ≠ .look ∧ pc ≠ .receiving ∧ pc ≠ .reconnecting) :
    Settled { s with pc := pc } where
  closed := h.closed
  outside hwindow := hwindow.elim (fun hw => hpc.1 hw.1) hpc.2.2
  expecting hwait := absurd hwait (not_or.2 ⟨hpc.1, hpc.2.1⟩)
  unrecorded := h.unrecorded

theorem settled_take {r : Reply} {rest : List Reply} {handled : List ℕ} (h : Settled s) (hpc : s.pc = .receiving)
    (hc : s.conn = some c) (hinbox : s.inbox c = r :: rest) (hr : r ≠ .unsubscribed) :
    Settled { s with inbox := Function.update s.inbox c rest, handled := handled } ∧
      ({ s with inbox := Function.update s.inbox c rest, handled := handled } : Subscriber).left ≤ s.left - 1 := by
  have hahead : ahead (s.inbox c) = ahead rest + 1 := by
    rw [hinbox]
    cases r with
    | unsubscribed => exact absurd rfl hr
    | _ => rfl
  refine ⟨⟨h.closed, h.outside, fun _ d hd => ?_, h.unrecorded⟩, ?_⟩
  · obtain rfl : c = d := Option.some.inj (hc.symm.trans hd)
    have hanswered := h.expecting (.inr hpc) c hc
    rw [Answered, hinbox, List.mem_cons] at hanswered
    simpa [Answered] using hanswered.imp_left fun hm => hm.resolve_left hr.symm
  · simp [hpc, hc, hahead]

theorem settled_receive (h : Settled s) (hpc : s.pc = .receiving) (hc : s.conn = some c) :
    Settled (s.receive c) ∧ (s.receive c).left ≤ s.left - 1 := by
  cases hinbox : s.inbox c with
  | nil =>
    have hdead : s.alive c = false := (h.expecting (.inr hpc) c hc).resolve_left (by simp [hinbox])
    simp only [Subscriber.receive, hinbox, hdead]
    exact ⟨h.move ⟨nofun, nofun, nofun⟩, by simp [hpc]⟩
  | cons r rest =>
    cases r with
    | message | other =>
      simp only [Subscriber.receive, hinbox]
      exact settled_take h hpc hc hinbox nofun
    | unsubscribed =>
      simp only [Subscriber.receive, hinbox]
      refine ⟨⟨h.closed, by simp [Window], by simp [Expecting], h.unrecorded⟩, ?_⟩
      simp [hpc]

theorem settled_receiveLoop (h : Settled s) (hpc : s.pc = .receiving) :
    Settled (s.receiveLoop e) ∧ (s.receiveLoop e).left ≤ s.left - 1 := by
  have hclosing : ∀ err, Settled { s with pc := .closing err } ∧
      ({ s with pc := .closing err } : Subscriber).left ≤ s.left - 1 :=
    fun err => ⟨h.move ⟨nofun, nofun, nofun⟩, by simp [hpc]⟩
  unfold Subscriber.receiveLoop
  split_ifs
  · exact hclosing true
  · exact hclosing false
  · cases hc : s.conn with
    | none | some c => simpa only [← hc] using hclosing true
  · cases hc : s.conn with
    | none => simpa only [← hc] using hclosing true
    | some c => exact settled_receive h hpc hc

theorem settled_loop (h : Settled s) : Settled (s.recv e) ∧ (s.recv e).left ≤ s.left - 1 := by
  cases hpc : s.pc with
  | check =>
    simp only [Subscriber.recv, hpc, if_pos h.closed]
    exact ⟨h.move ⟨nofun, nofun, nofun⟩, by simp⟩
  | look =>
    cases hc : s.conn with
    | none => exact absurd (.inl ⟨hpc, hc⟩) h.outside
    | some c =>
      have hsome : s.conn.isSome := by simp [hc]
      simp only [Subscriber.recv, hpc, if_pos hsome]
      refine ⟨⟨h.closed, by simp [Window], fun _ d hd => ?_, h.unrecorded⟩, by simp [hpc]⟩
      exact h.expecting (.inl hpc) d hd
  | reconnecting => exact absurd (.inr hpc) h.outside
  | receiving =>
    simp only [Subscriber.recv, hpc]
    exact settled_receiveLoop h hpc
  | closing err =>
    cases hc : s.conn with
    | none =>
      have heq : s.recv e = { s with pc := .ended err } := by simp only [Subscriber.recv, hpc, hc]
      rw [heq]
      exact ⟨h.move ⟨nofun, nofun, nofun⟩, by simp [hpc]⟩
    | some c =>
      simp only [Subscriber.recv, hpc, hc]
      refine ⟨⟨h.closed, by simp [Window], by simp [Expecting], h.unrecorded⟩, ?_⟩
      simp [hpc]
  | ended err =>
    simp only [Subscriber.recv, hpc, if_pos (Or.inr h.closed)]
    exact ⟨h.move ⟨nofun, nofun, nofun⟩, by simp⟩
  | sleeping =>
    simp only [Subscriber.recv, hpc]
    split_ifs
    · exact ⟨h.move ⟨nofun, nofun, nofun⟩, by simp⟩
    · exact ⟨h.move ⟨nofun, nofun, nofun⟩, by simp [hpc]⟩
  | returned =>
    simp only [Subscriber.recv, hpc]
    exact ⟨h, by simp [hpc]⟩

theorem settled_step (h : Settled s) (op : Op) :
    Settled (step s op) ∧ (step s op).left ≤ s.left - (own op).toNat := by
  cases hown : own op with
  | false =>
    have hothers := others_step hown s
    exact ⟨h.others hothers, (left_others h hothers).le⟩
  | true =>
    cases op with
    | loop e => exact settled_loop h
    | _ => cases hown

theorem Settled.sound (h : Settled s) : (view s).Sound := by
  have hrecorded : ∀ c, c ∉ (view s).recorded := List.eq_nil_iff_forall_not_mem.1 h.unrecorded
  exact ⟨fun c _ hc => absurd hc (hrecorded c), fun _ c hc => absurd hc (hrecorded c)⟩

theorem Settled.returned (h : Settled s) (hleft : s.left = 0) : (view s).returned := by
  cases hpc : s.pc with
  | returned => simp [view, hpc]
  | reconnecting => exact absurd (.inr hpc) h.outside
  | _ => simp [hpc] at hleft

theorem final_of_settled (h : Settled s) : Final step own view s :=
  final_of_inv (I := Settled) (fun _ op h => (settled_step h op).1) (fun _ op h => (settled_step h op).2)
    (fun _ h => h.sound) (fun _ h => h.returned) h

theorem window_unsubscribed (s : Subscriber) : Window (unsubscribed s) ↔ Window s := by
  have hothers : Others s s.unsubscribe := @others_step .unsubscribe rfl s
  rw [Window, show (unsubscribed s).pc = s.pc from hothers.pc, show (unsubscribed s).conn = s.conn from hothers.conn,
    Window]

theorem settled_unsubscribed (houtside : ¬ Window s) : Settled (unsubscribed s) := by
  have hothers : Others s s.unsubscribe := @others_step .unsubscribe rfl s
  refine ⟨?_, (window_unsubscribed s).not.2 houtside, fun _ c hc => ?_, rfl⟩
  · simp only [unsubscribed, Subscriber.unsubscribe]
    split <;> try split_ifs
    all_goals rfl
  · have hconn : s.conn = some c := hothers.conn ▸ hc
    cases halive : s.alive c with
    | true => simp [Answered, unsubscribed, Subscriber.unsubscribe, hconn, halive, Subscriber.send]
    | false => simp [Answered, unsubscribed, Subscriber.unsubscribe, hconn, halive]

/-! ## In the window -/

theorem not_final_of_reconnecting (hpc : s.pc = .reconnecting) : ¬ Final step own view s := by
  refine not_final [.connect, .loop .none, .deliver s.conns, .loop .none, .loop .none] (c := s.conns) ?_ ?_
  all_goals
    simp [step, view, Subscriber.recv, Subscriber.reconnect, Subscriber.receiveLoop, Subscriber.receive,
      Subscriber.send, hpc]

theorem not_final_of_window (h : Window s) : ¬ Final step own view s := by
  rcases h with ⟨hpc, hconn⟩ | hpc
  · have hnext : (step s (.loop .none)).pc = .reconnecting := by simp [step, Subscriber.recv, hpc, hconn]
    exact fun hfinal => not_final_of_reconnecting hnext (hfinal.run [.loop .none])
  · exact not_final_of_reconnecting hpc

theorem final_iff (pre : List Op) :
    Final step own view (unsubscribed (run step initial pre)) ↔ ¬ Window (run step initial pre) := by
  generalize run step initial pre = s
  constructor
  · intro hfinal hwindow
    exact not_final_of_window ((window_unsubscribed s).2 hwindow) hfinal
  · intro houtside
    exact final_of_settled (settled_unsubscribed houtside)

end

/-! ## Both subscribers -/

/-- **Finality.** Whatever has happened before, for the RabbitMQ subscriber and for the Redis one. -/
theorem finality_iff (rabbitmq : List Rabbitmq.Resubscribe.Op) (redis : List Op) :
    (Final Rabbitmq.Resubscribe.step Rabbitmq.Resubscribe.own Rabbitmq.Resubscribe.view
        (Rabbitmq.Resubscribe.unsubscribed (run Rabbitmq.Resubscribe.step Rabbitmq.Resubscribe.initial rabbitmq)) ↔
      ¬ Rabbitmq.Resubscribe.Window (run Rabbitmq.Resubscribe.step Rabbitmq.Resubscribe.initial rabbitmq)) ∧
    (Final step own view (unsubscribed (run step initial redis)) ↔ ¬ Window (run step initial redis)) :=
  ⟨Rabbitmq.Resubscribe.final_iff rabbitmq, final_iff redis⟩

/-- the RabbitMQ loop has looked at `closed`; then Unsubscribe, and a consumer that is made and delivers -/
def rabbitmqOps : List Rabbitmq.Resubscribe.Op :=
  [.loop false true, .unsubscribe, .loop false true, .loop false true, .loop false true, .loop false true, .deliver 0,
    .loop false true]

/-- the connection is lost, and the Redis loop looks at `closed` again; then Unsubscribe, and a new subscription -/
def redisOps : List Op :=
  [.loop .none, .loop .none, .lose 0, .loop .error, .loop .none, .loop .none, .loop .none, .loop .none, .unsubscribe,
    .loop .none, .loop .none, .deliver 1, .loop .none, .loop .none]

/-- the handler is called for a consumer made after Unsubscribe, which stays open -/
theorem unsubscribed_between :
    ((run Rabbitmq.Resubscribe.step Rabbitmq.Resubscribe.initial rabbitmqOps).handled = [0] ∧
      (run Rabbitmq.Resubscribe.step Rabbitmq.Resubscribe.initial rabbitmqOps).isOpen 0 = true) ∧
    (run step initial redisOps).handled = [1] ∧ (run step initial redisOps).subscribed 1 = true := by
  decide

end LuluExt.RedisPubsub
