/-
The pumps of a WebSocket session: SendMessage, writePump, readPump and Close.

SendMessage puts a message on a channel, writePump takes it off and writes it to the connection. Close closes `done`,
sets `conn` to nil under its lock and closes the connection. Both cases of a select are ready afterwards: messages are
still accepted and still taken, and without a connection they are dropped with no error. A payload type that is neither
binary nor text has no case in writePump, which then drops every message.

Senders, the two pumps and the first call of Close run interleaved, one access to a channel or section under `connMu` at
a time; what the connection answers is an input. A step that its goroutine cannot take changes nothing. Beside the state
the model records the messages that were accepted, written and dropped.
-/
import LuluExt.Lib.Run
import LuluExt.Transport.Websocket.Message

namespace LuluExt.Websocket.Pump

open Run

/-! ## Model -/

/-- what `WithChannelBufferSize` and `WithPayloadType` set -/
structure Options where
  channelBufSize : ℕ := 256
  payloadType : PayloadType := .binary

inductive Writer (μ : Type) where
  | new
  | selecting
  | received (message : μ)
  /-- in `conn.WriteMessage` -/
  | writing (message : μ)
  /-- in the deferred Close -/
  | closing
  | returned
deriving DecidableEq, Repr

inductive Reader where
  | new
  | selecting
  /-- before `s.Conn()` -/
  | looking
  /-- in `conn.ReadMessage`, or in what it does with the message -/
  | reading
  | closing
  | returned
deriving DecidableEq, Repr

/-- how far the function that `closeOnce` runs has come -/
inductive Closing where
  | no
  /-- after `close(s.done)` -/
  | done
  /-- after `s.conn = nil` -/
  | unset
  /-- after `conn.Close` and `removeSession` -/
  | complete
deriving DecidableEq, Repr

structure Session (μ : Type) where
  send : List μ
  writer : Writer μ
  reader : Reader
  close : Closing
  accepted : List μ
  written : List μ
  dropped : List μ
deriving DecidableEq, Repr

variable {μ : Type}

def newSession : Session μ := ⟨[], .new, .new, .no, [], [], []⟩

/-- `s.conn` is nil -/
def Closing.noConn (c : Closing) : Bool := c == .unset || c == .complete

inductive Op (μ : Type) where
  | listen
  /-- SendMessage puts a message into the buffer, or hands it to writePump in its select -/
  | send (message : μ)
  | hand (message : μ)
  /-- writePump takes the case of the channel, or that of `done` -/
  | take
  | writerDone
  /-- the switch on the payload type, and the look at `conn` -/
  | dispatch
  | wrote (ok : Bool)
  /-- the select of readPump, which has a default -/
  | readerSelect
  | readerConn
  /-- a message was read and handled; or it was a close message, or there was an error -/
  | read (ok : Bool)
  /-- the first call of Close, by any goroutine, and its further steps -/
  | close
  | unset
  | complete
  | writerReturn
  | readerReturn
deriving DecidableEq, Repr

namespace Session

def listen (s : Session μ) : Session μ :=
  match s.writer with
  | .new => { s with writer := .selecting, reader := .selecting }
  | _ => s

def hand (s : Session μ) (message : μ) : Session μ :=
  match s.writer, s.send with
  | .selecting, [] => { s with writer := .received message, accepted := s.accepted ++ [message] }
  | _, _ => s

def take (s : Session μ) : Session μ :=
  match s.writer, s.send with
  | .selecting, message :: send => { s with writer := .received message, send }
  | _, _ => s

def dispatch (o : Options) (s : Session μ) : Session μ :=
  match s.writer with
  | .received message =>
    -- without a connection the senders return nil
    if o.payloadType = .other ∨ s.close.noConn then { s with writer := .selecting, dropped := s.dropped ++ [message] }
    else { s with writer := .writing message }
  | _ => s

def wrote (s : Session μ) (ok : Bool) : Session μ :=
  match s.writer with
  | .writing message =>
    if ok then { s with writer := .selecting, written := s.written ++ [message] }
    else { s with writer := .closing, dropped := s.dropped ++ [message] }
  | _ => s

def writerDone (s : Session μ) : Session μ :=
  match s.writer with
  | .selecting => if s.close = .no then s else { s with writer := .closing }
  | _ => s

/-- `closeOnce` makes every caller wait for the first one -/
def writerReturn (s : Session μ) : Session μ :=
  match s.writer with
  | .closing => if s.close = .complete then { s with writer := .returned } else s
  | _ => s

end Session

def step (o : Options) (s : Session μ) : Op μ → Session μ
  | .listen => s.listen
  | .send message =>
    if s.send.length < o.channelBufSize then { s with send := s.send ++ [message], accepted := s.accepted ++ [message] }
    else s
  | .hand message => s.hand message
  | .take => s.take
  | .writerDone => s.writerDone
  | .dispatch => s.dispatch o
  | .wrote ok => s.wrote ok
  | .readerSelect =>
    if s.reader = .selecting then { s with reader := if s.close = .no then .looking else .closing } else s
  | .readerConn =>
    if s.reader = .looking then { s with reader := if s.close.noConn then .closing else .reading } else s
  | .read ok => if s.reader = .reading then { s with reader := if ok then .selecting else .closing } else s
  | .close => if s.close = .no then { s with close := .done } else s
  | .unset => if s.close = .done then { s with close := .unset } else s
  | .complete => if s.close = .unset then { s with close := .complete } else s
  | .writerReturn => s.writerReturn
  | .readerReturn => if s.reader = .closing ∧ s.close = .complete then { s with reader := .returned } else s

/-! ## Invariant -/

def Writer.held : Writer μ → List μ
  | .received message | .writing message => [message]
  | _ => []

def Writer.ended : Writer μ → Bool
  | .closing | .returned => true
  | _ => false

structure Inv (o : Options) (s : Session μ) : Prop where
  ledger : s.accepted = s.written ++ s.dropped ++ s.writer.held ++ s.send
  capacity : s.send.length ≤ o.channelBufSize
  /-- what is dropped comes after all that is written -/
  writing : ∀ message, s.writer = .writing message → s.dropped = []
  cause : s.dropped = [] ∨ o.payloadType = .other ∨ s.close.noConn ∨ s.writer.ended
  waited : s.writer = .returned ∨ s.reader = .returned → s.close = .complete

variable {o : Options} {s : Session μ}

theorem Inv.hand (h : Inv o s) (message : μ) : Inv o (s.hand message) := by
  unfold Session.hand
  split
  · rename_i hw hs
    obtain ⟨hl, hc, -, hd, hr⟩ := h
    have hall : s.accepted = s.written ++ s.dropped := by simpa [Writer.held, hw, hs] using hl
    rw [hw] at hd hr
    exact ⟨by simp [Writer.held, hall, hs], hc, nofun, by simpa [Writer.ended] using hd, by simpa using hr⟩
  · exact h

theorem Inv.take (h : Inv o s) : Inv o s.take := by
  unfold Session.take
  split
  · rename_i message send hw hs
    obtain ⟨hl, hc, -, hd, hr⟩ := h
    rw [hw, hs] at hl
    rw [hs] at hc
    rw [hw] at hd
    refine ⟨by simpa [Writer.held] using hl, Nat.le_of_succ_le hc, nofun, ?_, ?_⟩
    · simpa [Writer.ended] using hd
    · simpa [hw] using hr
  · exact h

theorem Inv.dispatch (h : Inv o s) : Inv o (s.dispatch o) := by
  unfold Session.dispatch
  split
  · rename_i message hw
    obtain ⟨hl, hc, -, hd, hr⟩ := h
    rw [hw] at hl hd hr
    split
    · rename_i hcause
      exact ⟨by simpa [Writer.held] using hl, hc, nofun, Or.inr (hcause.imp_right Or.inl), by simpa using hr⟩
    · rename_i hcause
      simp only [not_or] at hcause
      have hnone : s.dropped = [] := by simpa [hcause, Writer.ended] using hd
      exact ⟨hl, hc, fun _ _ => hnone, Or.inl hnone, by simpa using hr⟩
  · exact h

theorem Inv.wrote (h : Inv o s) (ok : Bool) : Inv o (s.wrote ok) := by
  unfold Session.wrote
  split
  · rename_i message hw
    obtain ⟨hl, hc, hnone, -, hr⟩ := h
    have hnone := hnone message hw
    rw [hw, hnone] at hl
    rw [hw] at hr
    split
    · exact ⟨by simpa [Writer.held, hnone] using hl, hc, nofun, Or.inl hnone, by simpa using hr⟩
    · exact ⟨by simpa [Writer.held, hnone] using hl, hc, nofun, by simp [Writer.ended], by simpa using hr⟩
  · exact h

theorem inv_step (h : Inv o s) (op : Op μ) : Inv o (step o s op) := by
  cases op with
  | send message =>
    simp only [step]
    split
    · rename_i hroom
      exact ⟨by simp [h.ledger], by simpa using hroom, h.writing, h.cause, h.waited⟩
    · exact h
  | hand message => exact h.hand message
  | take => exact h.take
  | dispatch => exact h.dispatch
  | wrote ok => exact h.wrote ok
  | listen | writerDone | writerReturn =>
    obtain ⟨hl, hc, hnone, hd, hr⟩ := h
    simp only [step, Session.listen, Session.writerDone, Session.writerReturn]
    repeat' split
    all_goals exact ⟨by simp_all [Writer.held], hc, by simp_all, by simp_all [Writer.ended], by simp_all⟩
  | readerSelect | readerConn | read ok | readerReturn | close | unset | complete =>
    obtain ⟨hl, hc, hnone, hd, hr⟩ := h
    simp only [step]
    repeat' split
    all_goals exact ⟨hl, hc, hnone, by simp_all [Closing.noConn], by simp_all⟩

/-! ## Results -/

/-- the message in `WriteMessage` -/
def Writer.pending : Writer μ → List μ
  | .writing message => [message]
  | _ => []

/-- what was written, and what a write under way may still add -/
def Session.last (s : Session μ) : List μ := s.written ++ s.writer.pending

theorem last_step (h : s.close.noConn) (op : Op μ) :
    (step o s op).close.noConn ∧ (step o s op).last <+: s.last := by
  cases op with
  | wrote ok =>
    simp only [step, Session.wrote, Session.last]
    repeat' split
    all_goals simp_all [Writer.pending]
  | listen | hand message | take | dispatch | writerDone | writerReturn =>
    simp only [step, Session.listen, Session.hand, Session.take, Session.dispatch, Session.writerDone,
      Session.writerReturn, Session.last]
    repeat' split
    all_goals simp_all [Writer.pending]
  | send message | readerSelect | readerConn | read ok | readerReturn | close | unset | complete =>
    simp only [step, Session.last]
    repeat' split
    all_goals simp_all [Closing.noConn]

/-- **Cut.** Once `conn` is nil, nothing is written but the message that is being written at that moment, whatever is
accepted and taken afterwards. -/
theorem cut_off (o : Options) (s : Session μ) (h : s.close.noConn) (ops : List (Op μ)) :
    (run (step o) s ops).written <+: s.written ++ s.writer.pending := by
  have hstep : ∀ t op, t.close.noConn ∧ t.last <+: s.last →
      (step o t op).close.noConn ∧ (step o t op).last <+: s.last := by
    intro t op ⟨hconn, hlast⟩
    exact (last_step hconn op).imp_right fun hp => hp.trans hlast
  exact (List.prefix_append _ _).trans (run_inv hstep ⟨h, List.prefix_rfl⟩ ops).2

/-- the session is closed while a message is written and another one waits -/
def closedInWrite : Session ℕ :=
  run (step { payloadType := .text }) newSession [.listen, .send 1, .send 2, .take, .dispatch, .close, .unset]

theorem closedInWrite_cut :
    (run (step { payloadType := .text }) closedInWrite [.wrote true, .take, .dispatch, .send 3]).written <+: [1] ∧
      (run (step { payloadType := .text }) closedInWrite [.wrote true, .take, .dispatch, .send 3]).dropped = [2] :=
  ⟨cut_off { payloadType := .text } closedInWrite (by decide) _, by decide⟩

end LuluExt.Websocket.Pump
