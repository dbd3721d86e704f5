/-
The broker on Redis streams: what a subscriber gets of a published message, and what it acknowledges.

A message is stored as fields, the body first and then the headers. The subscriber takes the reply of XREADGROUP apart
with type assertions. It takes the body out of the fields and leaves the headers there; and it asserts that the ID of an
entry is a string, which is a byte slice like everything else, so that it acknowledges the empty ID. Redis refuses that,
and every entry stays in the list of those that are pending. Of Redis only this is assumed, and that an ID is not empty
(`Redis`). Beside the state the model records what was read and handled, and the XACK commands.
-/
import LuluExt.Lib.Run
import LuluExt.Broker.Encoding

namespace LuluExt.RedisStream

open Run Broker

abbrev Bytes := List UInt8

variable {ι χ : Type}

/-! ## Redis -/

/-- IDs of entries, as XADD returns them and XREADGROUP repeats them, and what XACK leaves of the pending list -/
structure Redis (ι : Type) where
  text : ι → Bytes
  xack : List ι → Bytes → Except GoError (List ι)
  text_ne_nil : ∀ id, text id ≠ []
  xack_nil : ∀ pending, ∃ err, xack pending [] = .error err

/-- a published message; the headers are in the order in which the map is walked -/
structure Message where
  headers : List (Bytes × Bytes)
  body : Bytes
deriving DecidableEq, Repr

structure Entry (ι : Type) where
  id : ι
  message : Message
deriving DecidableEq, Repr

def bodyField : Bytes := Go.utf8 "body"

def Message.fields (msg : Message) : List (Bytes × Bytes) := (bodyField, msg.body) :: msg.headers

/-! ## Replies -/

inductive Any where
  | nil
  | bytes (b : Bytes)
  | string (s : Bytes)
  | int (n : ℤ)
  | slice (xs : List Any)

def Any.asString : Any → Bytes
  | .string s => s
  | _ => []

def Any.asSlice : Any → Option (List Any)
  | .slice xs => some xs
  | _ => none

def fieldReplies : List (Bytes × Bytes) → List Any
  | [] => []
  | (k, v) :: fields => .bytes k :: .bytes v :: fieldReplies fields

def entryReply (r : Redis ι) (e : Entry ι) : Any :=
  .slice [.bytes (r.text e.id), .slice (fieldReplies e.message.fields)]

/-- the reply of XREADGROUP, where IDs, names and values are bulk strings -/
def readReply (r : Redis ι) (topic : Bytes) (es : List (Entry ι)) : Any :=
  if es.isEmpty then .nil else .slice [.slice [.bytes topic, .slice (es.map (entryReply r))]]

/-! ## The subscriber -/

structure Received (χ : Type) where
  headers : List (Bytes × Bytes)
  body : Option (Value χ)

/-- `binder` is what the binder returns; the handler may answer each call differently -/
structure Subscriber (ι χ : Type) where
  redis : Redis ι
  lib : Libraries χ
  codec : Option Codec
  topic : Bytes
  binder : Option (Value χ)
  autoAck : Bool
  handler : ℕ → Received χ → Option GoError

/-- `read` are the entries that Redis has delivered, `delivered` those of them that came before the subscription was
closed, `succeeded` those whose handler returned nil, and `acks` the XACK commands, each with the entry it is for -/
structure State (ι χ : Type) where
  stream : List (Entry ι)
  pending : List ι
  closed : Bool
  read : List ι
  delivered : List (Entry ι)
  calls : List (Received χ)
  succeeded : List ι
  acks : List (ι × Bytes)

def start : State ι χ := ⟨[], [], false, [], [], [], [], []⟩

def Subscriber.decode (sub : Subscriber ι χ) (data : Bytes) : Except GoError (Option (Value χ)) :=
  match sub.binder with
  | none => .ok (some (.bytes (some data)))
  | some binder => decodeBody sub.lib sub.codec binder (some data)

def State.ack (r : Redis ι) (s : State ι χ) (e : Entry ι) (msgID : Bytes) : State ι χ :=
  { s with
    acks := s.acks ++ [(e.id, msgID)]
    pending := match r.xack s.pending msgID with
      | .ok pending => pending
      | .error _ => s.pending }

def onMessage (sub : Subscriber ι χ) (e : Entry ι) (msgID data : Bytes) (s : State ι χ) : State ι χ :=
  match sub.decode data with
  | .error _ => s
  | .ok body =>
    let m : Received χ := ⟨[], body⟩
    let called := { s with calls := s.calls ++ [m] }
    match sub.handler s.calls.length m with
    | some _ => called
    | none =>
      let called := { called with succeeded := s.succeeded ++ [e.id] }
      if sub.autoAck then called.ack sub.redis e msgID else called

def extractField (key : Bytes) : List Any → Any
  | .bytes k :: v :: fields => if k = key then v else extractField key fields
  | _ :: _ :: fields => extractField key fields
  | _ => .nil

def receiveMessage (sub : Subscriber ι χ) (s : State ι χ) (msg : Entry ι × Any) : State ι χ :=
  match msg.2.asSlice with
  | some (id :: fields :: _) =>
    match extractField bodyField (fields.asSlice.getD []) with
    | .bytes data => onMessage sub msg.1 id.asString data s
    | _ => s
  | _ => s

/-- the messages that the loops over the streams of a reply and over each stream's messages come to -/
def messagesOf (reply : Any) : List Any :=
  (reply.asSlice.getD []).flatMap fun streamEntry =>
    match streamEntry.asSlice with
    | some (_ :: messages :: _) => messages.asSlice.getD []
    | _ => []

/-- `publish` with the ID that Redis gives the entry; one round of the receive loop, in which Redis delivers up to n
entries, and the subscription may be found closed after some of their messages -/
inductive Op (ι : Type) where
  | publish (id : ι) (msg : Message)
  | receive (n : ℕ) (closedAfter : Option ℕ)

def step (sub : Subscriber ι χ) (s : State ι χ) : Op ι → State ι χ
  | .publish id msg => { s with stream := s.stream ++ [⟨id, msg⟩] }
  | .receive n closedAfter =>
    if s.closed then s
    else
      let batch := s.stream.take n
      let msgs := batch.zip (messagesOf (readReply sub.redis sub.topic batch))
      (msgs.take (closedAfter.getD n)).foldl (receiveMessage sub)
        { s with
          stream := s.stream.drop n
          pending := s.pending ++ batch.map Entry.id
          read := s.read ++ batch.map Entry.id
          delivered := s.delivered ++ batch.take (closedAfter.getD n)
          closed := closedAfter.isSome }

/-! ## What is asked of it -/

/-- one call for each entry, in their order, with its headers and its body -/
def Faithful (sub : Subscriber ι χ) (s : State ι χ) : Prop :=
  s.calls.map (fun m => (m.headers, Except.ok m.body)) =
    s.delivered.map fun e => (e.message.headers, sub.decode e.message.body)

def AcksNamed (r : Redis ι) (s : State ι χ) : Prop := ∀ a ∈ s.acks, a.2 = r.text a.1

/-- what was handled is not pending any more, and everything else is -/
def Settled [DecidableEq ι] (s : State ι χ) : Prop := s.pending = s.read.filter (· ∉ s.succeeded)

/-! ## A round of the loop -/

/-- the body comes first, so that a header of its name is not taken for it -/
theorem extractField_fields (msg : Message) :
    extractField bodyField (fieldReplies msg.fields) = .bytes msg.body := by
  simp [Message.fields, fieldReplies, extractField]

theorem messagesOf_readReply (r : Redis ι) (topic : Bytes) (es : List (Entry ι)) :
    messagesOf (readReply r topic es) = es.map (entryReply r) := by
  cases es with
  | nil => rfl
  | cons e es => simp [readReply, messagesOf, Any.asSlice]

/-- what the loop does with the message of an entry: the ID is lost, the body is found -/
theorem receiveMessage_entryReply (sub : Subscriber ι χ) (s : State ι χ) (e : Entry ι) :
    receiveMessage sub s (e, entryReply sub.redis e) = onMessage sub e [] e.message.body s := by
  simp [receiveMessage, entryReply, Any.asSlice, Any.asString, extractField_fields]

theorem foldl_receiveMessage (sub : Subscriber ι χ) (s : State ι χ) (es : List (Entry ι)) (k : ℕ) :
    ((es.zip (es.map (entryReply sub.redis))).take k).foldl (receiveMessage sub) s =
      (es.take k).foldl (fun s e => onMessage sub e [] e.message.body s) s := by
  have hzip : es.zip (es.map (entryReply sub.redis)) = es.map fun e => (e, entryReply sub.redis e) := by
    simpa using List.zip_map' (f := id) (g := entryReply sub.redis) (l := es)
  rw [hzip, ← List.map_take, List.foldl_map]
  simp only [receiveMessage_entryReply]

/-! ## The records -/

def callFor (sub : Subscriber ι χ) (e : Entry ι) : Option (Received χ) :=
  (sub.decode e.message.body).toOption.map fun body => ⟨[], body⟩

/-- the calls are those for some entries -/
structure Recorded (sub : Subscriber ι χ) (s : State ι χ) (es : List (Entry ι)) : Prop where
  pending : s.pending = s.read
  calls : s.calls = es.filterMap (callFor sub)
  /-- every XACK is for the empty ID -/
  acks : s.acks = if sub.autoAck then s.succeeded.map (fun id => (id, [])) else []
  succeeded : ∀ id ∈ s.succeeded, id ∈ s.read

section Records

variable {sub : Subscriber ι χ} {s : State ι χ} {es : List (Entry ι)}

theorem recorded_onMessage (h : Recorded sub s es) {e : Entry ι} (he : e.id ∈ s.read) :
    Recorded sub (onMessage sub e [] e.message.body s) (es ++ [e]) ∧
      (onMessage sub e [] e.message.body s).read = s.read ∧
      (onMessage sub e [] e.message.body s).delivered = s.delivered := by
  unfold onMessage
  cases hdecode : sub.decode e.message.body with
  | error err =>
    refine ⟨⟨h.pending, ?_, h.acks, h.succeeded⟩, rfl, rfl⟩
    simp [h.calls, callFor, hdecode, Except.toOption]
  | ok body =>
    have hcalls : s.calls ++ [⟨[], body⟩] = (es ++ [e]).filterMap (callFor sub) := by
      simp [h.calls, callFor, hdecode, Except.toOption]
    cases hhandler : sub.handler s.calls.length ⟨[], body⟩ with
    | some err =>
      simp only [hhandler]
      exact ⟨⟨h.pending, hcalls, h.acks, h.succeeded⟩, trivial, trivial⟩
    | none =>
      have hsucceeded : ∀ id ∈ s.succeeded ++ [e.id], id ∈ s.read := by
        intro id hid
        rcases List.mem_append.1 hid with hid | hid
        · exact h.succeeded id hid
        · rw [List.mem_singleton.1 hid]
          exact he
      simp only [hhandler]
      cases hauto : sub.autoAck with
      | false =>
        refine ⟨⟨h.pending, hcalls, ?_, hsucceeded⟩, rfl, rfl⟩
        simp [h.acks, hauto]
      | true =>
        -- the empty ID is refused, and the entry stays pending
        obtain ⟨err, herr⟩ := sub.redis.xack_nil s.pending
        refine ⟨⟨?_, hcalls, ?_, hsucceeded⟩, rfl, rfl⟩
        · simp only [State.ack, herr]
          exact h.pending
        · simp [State.ack, h.acks, hauto]

theorem recorded_foldl (h : Recorded sub s es) {batch : List (Entry ι)} (hbatch : ∀ e ∈ batch, e.id ∈ s.read) :
    Recorded sub (batch.foldl (fun s e => onMessage sub e [] e.message.body s) s) (es ++ batch) ∧
      (batch.foldl (fun s e => onMessage sub e [] e.message.body s) s).delivered = s.delivered := by
  induction batch generalizing s es with
  | nil => exact ⟨by rwa [List.append_nil], rfl⟩
  | cons e batch ih =>
    obtain ⟨hnext, hread, hdelivered⟩ := recorded_onMessage h (hbatch e List.mem_cons_self)
    rw [List.append_cons, List.foldl_cons, ← hdelivered]
    exact ih hnext fun e' he' => hread ▸ hbatch e' (List.mem_cons_of_mem e he')

theorem recorded_step (sub : Subscriber ι χ) (s : State ι χ) (op : Op ι) (h : Recorded sub s s.delivered) :
    Recorded sub (step sub s op) (step sub s op).delivered := by
  cases op with
  | publish id msg => exact ⟨h.pending, h.calls, h.acks, h.succeeded⟩
  | receive n closedAfter =>
    simp only [step]
    split
    · exact h
    · rw [messagesOf_readReply, foldl_receiveMessage]
      have hread : Recorded sub { s with
          stream := s.stream.drop n
          pending := s.pending ++ (s.stream.take n).map Entry.id
          read := s.read ++ (s.stream.take n).map Entry.id
          delivered := s.delivered ++ (s.stream.take n).take (closedAfter.getD n)
          closed := closedAfter.isSome } s.delivered :=
        ⟨congrArg (· ++ (s.stream.take n).map Entry.id) h.pending, h.calls, h.acks,
          fun id hid => List.mem_append_left _ (h.succeeded id hid)⟩
      obtain ⟨hrecorded, hdelivered⟩ := recorded_foldl hread
        fun e (he : e ∈ (s.stream.take n).take (closedAfter.getD n)) =>
          List.mem_append_right _ (List.mem_map_of_mem (List.mem_of_mem_take he))
      rwa [hdelivered]

end Records

theorem recorded_run (sub : Subscriber ι χ) (ops : List (Op ι)) :
    Recorded sub (run (step sub) start ops) (run (step sub) start ops).delivered := by
  apply run_inv (I := fun s => Recorded sub s s.delivered) (recorded_step sub)
  refine ⟨rfl, rfl, ?_, by simp [start]⟩
  simp [start]

/-! ## What subscribers get -/

theorem faithful_list_iff (sub : Subscriber ι χ) (es : List (Entry ι)) :
    (es.filterMap (callFor sub)).map (fun m => (m.headers, Except.ok m.body)) =
      es.map (fun e => (e.message.headers, sub.decode e.message.body)) ↔
        ∀ e ∈ es, e.message.headers = [] ∧ ∃ body, sub.decode e.message.body = .ok body := by
  induction es with
  | nil => simp
  | cons e es ih =>
    cases hdecode : sub.decode e.message.body with
    | ok body =>
      have hcall : callFor sub e = some ⟨[], body⟩ := by simp [callFor, hdecode, Except.toOption]
      rw [List.filterMap_cons_some hcall, List.map_cons, List.map_cons, List.cons.injEq, ih, List.forall_mem_cons,
        hdecode]
      simp
    | error err =>
      -- without a call for the first entry there are fewer calls than entries
      have hcall : callFor sub e = none := by simp [callFor, hdecode, Except.toOption]
      constructor
      · intro heq
        have hlength := congrArg List.length heq
        have hle := List.length_filterMap_le (callFor sub) es
        rw [List.filterMap_cons_none hcall, List.length_map, List.length_map, List.length_cons] at hlength
        omega
      · intro hall
        obtain ⟨body, hbody⟩ := (hall e List.mem_cons_self).2
        rw [hdecode] at hbody
        cases hbody

section Acks

variable {sub : Subscriber ι χ} {s : State ι χ} {es : List (Entry ι)}

theorem acksNamed_iff (h : Recorded sub s es) (hauto : sub.autoAck) : AcksNamed sub.redis s ↔ s.succeeded = [] := by
  rw [AcksNamed, h.acks, if_pos hauto]
  constructor
  · intro hnamed
    apply List.eq_nil_iff_forall_not_mem.2
    intro id hid
    exact sub.redis.text_ne_nil id (hnamed (id, []) (List.mem_map_of_mem hid)).symm
  · intro hnil
    simp [hnil]

theorem settled_iff [DecidableEq ι] (h : Recorded sub s es) : Settled s ↔ s.succeeded = [] := by
  rw [Settled, h.pending, eq_comm, List.filter_eq_self]
  constructor
  · intro hnone
    apply List.eq_nil_iff_forall_not_mem.2
    intro id hid
    have hnot := hnone id (h.succeeded id hid)
    simp [hid] at hnot
  · intro hnil
    simp [hnil]

end Acks

/-- **Streams.** The handler was called once for each entry, in order, with its headers and body, if and only if no
message had headers and every body could be made; and with AutoAck every XACK names its entry and exactly the entries
that were handled have left the pending list, if and only if none was handled. -/
theorem stream_iff [DecidableEq ι] (sub : Subscriber ι χ) (ops : List (Op ι)) :
    (Faithful sub (run (step sub) start ops) ↔ ∀ e ∈ (run (step sub) start ops).delivered,
      e.message.headers = [] ∧ ∃ body, sub.decode e.message.body = .ok body) ∧
    ((sub.autoAck = true → AcksNamed sub.redis (run (step sub) start ops) ∧ Settled (run (step sub) start ops)) ↔
      sub.autoAck = false ∨ (run (step sub) start ops).succeeded = []) := by
  have h := recorded_run sub ops
  constructor
  · rw [Faithful, h.calls]
    exact faithful_list_iff sub _
  · cases hauto : sub.autoAck with
    | false => simp
    | true => simp [acksNamed_iff h hauto, settled_iff h]

/-- the IDs 0-1, 0-2 and so on; XACK takes an entry with the ID out of the list -/
def numbered : Redis ℕ where
  text n := 0x30 :: 0x2D :: Go.utf8 (toString n)
  xack pending id :=
    if id = [] then .error ⟨"ERR Invalid stream ID specified as stream command argument"⟩
    else .ok (pending.filter fun n => 0x30 :: 0x2D :: Go.utf8 (toString n) ≠ id)
  text_ne_nil _ := List.cons_ne_nil _ _
  xack_nil _ := ⟨_, rfl⟩

/-- a subscriber without a binder, whose handler always returns nil -/
def rawSubscriber : Subscriber ℕ UInt8 := ⟨numbered, plain, none, Go.utf8 "orders", none, true, fun _ _ => none⟩

/-- **Lost headers.** The message comes without its header, the XACK is for the empty ID, the entry stays pending. -/
theorem lost_headers :
    let s := run (step rawSubscriber) start
      [.publish 1 ⟨[(Go.utf8 "trace", Go.utf8 "7")], Go.utf8 "hi"⟩, .receive 10 none]
    s.calls = [⟨[], some (.bytes (some (Go.utf8 "hi")))⟩] ∧ s.acks = [(1, [])] ∧ s.succeeded = [1] ∧ s.pending = [1] :=
  ⟨rfl, rfl, rfl, rfl⟩

end LuluExt.RedisStream
