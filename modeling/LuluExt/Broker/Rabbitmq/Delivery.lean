/-
Deliveries of the RabbitMQ broker: the handler is called with a body that may not have been decoded.

The subscriber stores the error of `Unmarshal` in its publication and logs it, but does not return. It calls the
handler, and the handler's result replaces the error: a delivery that could not be decoded is acknowledged when the
handler returns nil. The nats subscriber returns before it calls the handler.

What is recorded of a delivery is the calls of the handler and the acknowledgements. A handler is given the error too,
as `Error()` of the event; it does not acknowledge on its own.
-/
import LuluExt.Broker.Encoding
import LuluExt.Broker.Headers

namespace LuluExt.Rabbitmq

open Broker

variable {χ : Type}

/-- the options of a subscription that decide about acknowledgements; the last two are values of its context -/
structure SubscribeOptions where
  autoAck : Bool
  ackSuccess : Option Bool
  requeueOnError : Option Bool
deriving DecidableEq, Repr

structure Mode where
  autoAck : Bool
  ackSuccess : Bool
  requeueOnError : Bool
deriving DecidableEq, Repr

def SubscribeOptions.mode (o : SubscribeOptions) : Mode where
  autoAck := if o.ackSuccess = some true then false else o.autoAck
  ackSuccess := o.ackSuccess = some true
  requeueOnError := o.requeueOnError.getD false

structure Delivery where
  headers : Headers.Rabbitmq.Table
  routingKey : String
  body : Slice

structure Event (χ : Type) where
  topic : String
  headers : String → Option (List UInt8)
  body : Option (Value χ)
  err : Option GoError

inductive Ack where
  | ack
  | nack (requeue : Bool)
deriving DecidableEq, Repr

structure Handled (χ : Type) where
  calls : List (Event χ)
  acks : List Ack

structure Subscription (χ : Type) where
  lib : Libraries χ
  codec : Option Codec
  binder : Option (Value χ)
  options : SubscribeOptions
  handler : Event χ → Option GoError

/-- the event of a delivery; a body that is not decoded stays what the binder returned -/
def event (sub : Subscription χ) (msg : Delivery) : Event χ :=
  let p : Event χ := ⟨msg.routingKey, Headers.Rabbitmq.rabbitHeaderToMap msg.headers, none, none⟩
  match sub.binder with
  | none => { p with body := some (.bytes msg.body) }
  | some b =>
    match decodeBody sub.lib sub.codec b msg.body with
    | .ok body => { p with body := body }
    | .error e => { p with body := some b, err := some e }

/-- the function that `Subscribe` makes for the deliveries -/
def fn (sub : Subscription χ) (msg : Delivery) : Handled χ :=
  let mode := sub.options.mode
  let p := event sub msg
  let err := sub.handler p
  { calls := [p]
    acks :=
      if err = none ∧ mode.ackSuccess = true ∧ mode.autoAck = false then [.ack]
      else if err ≠ none ∧ mode.autoAck = false then [.nack mode.requeueOnError]
      else [] }

/-! ## The contract -/

/-- there is no binder, or the body is decoded into what it returned -/
def Decodes (sub : Subscription χ) (msg : Delivery) : Prop :=
  ∀ b, sub.binder = some b → ∃ body, decodeBody sub.lib sub.codec b msg.body = .ok body

/-- the body of an event: that of the message where there is no binder, or the decoded one -/
def IsDecoded (sub : Subscription χ) (msg : Delivery) (p : Event χ) : Prop :=
  match sub.binder with
  | none => p.body = some (.bytes msg.body)
  | some b => decodeBody sub.lib sub.codec b msg.body = .ok p.body

variable (sub : Subscription χ)

theorem event_isDecoded_iff (msg : Delivery) : IsDecoded sub msg (event sub msg) ↔ Decodes sub msg := by
  unfold IsDecoded Decodes event
  cases hbinder : sub.binder with
  | none => simp
  | some b =>
    cases hdecode : decodeBody sub.lib sub.codec b msg.body with
    | ok body | error e => simp [hdecode]

theorem ack_mem_iff (msg : Delivery) :
    Ack.ack ∈ (fn sub msg).acks ↔ sub.options.ackSuccess = some true ∧ sub.handler (event sub msg) = none := by
  simp only [fn, SubscribeOptions.mode]
  by_cases hack : sub.options.ackSuccess = some true
  · cases hhandler : sub.handler (event sub msg) <;> simp [hack]
  · by_cases hauto : sub.options.autoAck = false
    · cases hhandler : sub.handler (event sub msg) <;> simp [hauto]
    · simp [hack]

theorem acks_length (msg : Delivery) (hack : sub.options.ackSuccess = some true) : (fn sub msg).acks.length = 1 := by
  simp only [fn, SubscribeOptions.mode]
  cases hhandler : sub.handler (event sub msg) <;> simp [hack]

/-- **What becomes of a delivery.** The handler gets decoded bodies only, if and only if there is no binder or the body
decodes; one that does not decode is not acknowledged, if and only if it decodes, the mode is not ack-on-success, or the
handler returns an error; and in that mode exactly one of Ack and Nack is issued. -/
theorem delivery_iff (sub : Subscription χ) (msg : Delivery) :
    ((∀ p ∈ (fn sub msg).calls, IsDecoded sub msg p) ↔ Decodes sub msg) ∧
    ((¬ Decodes sub msg → Ack.ack ∉ (fn sub msg).acks) ↔
      Decodes sub msg ∨ sub.options.ackSuccess ≠ some true ∨ sub.handler (event sub msg) ≠ none) ∧
    (sub.options.ackSuccess = some true → (fn sub msg).acks.length = 1) := by
  refine ⟨?_, ?_, acks_length sub msg⟩
  · rw [← event_isDecoded_iff]
    simp [fn]
  · rw [ack_mem_iff]
    tauto

/-! ## Bodies that are not decoded -/

/-- a proto body is never decoded: the codec is given the address of an interface -/
theorem proto_not_decodes (msg : Delivery) (b : Value χ) (hcodec : sub.codec = some .proto)
    (hbinder : sub.binder = some b) : ¬ Decodes sub msg := by
  intro h
  obtain ⟨body, hbody⟩ := h b hbinder
  rw [hcodec] at hbody
  cases hdata : msg.body with
  | none => simp [decodeBody, unmarshal, hdata, Except.map] at hbody
  | some data => simp [decodeBody, unmarshal, codecUnmarshal, protoUnmarshal, Value.typ, hdata, Except.map] at hbody

/-- an order is expected, and the handler is content with anything -/
def orders (codec : Codec) : Subscription UInt8 where
  lib := plain
  codec := some codec
  binder := some (.ptr (.named "Order" 0))
  options := ⟨true, some true, none⟩
  handler _ := none

/-- **Garbage is acknowledged.** The body is not json, and the handler is called with what the binder returned. With
proto the same happens to every delivery, here a valid one. -/
theorem garbage_acked :
    ((fn (orders .json) ⟨∅, "orders", some [1, 2]⟩).calls.map Event.err = [some ⟨"json: cannot unmarshal"⟩] ∧
      (fn (orders .json) ⟨∅, "orders", some [1, 2]⟩).acks = [.ack] ∧
      ¬ Decodes (orders .json) ⟨∅, "orders", some [1, 2]⟩) ∧
    ((fn (orders .proto) ⟨∅, "orders", some [7]⟩).acks = [.ack] ∧
      ¬ Decodes (orders .proto) ⟨∅, "orders", some [7]⟩) := by
  refine ⟨⟨rfl, rfl, fun h => ?_⟩, rfl, proto_not_decodes _ _ _ rfl rfl⟩
  obtain ⟨body, hbody⟩ := h _ rfl
  cases hbody

end LuluExt.Rabbitmq
