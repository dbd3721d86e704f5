/-
Messages of the websocket server: `marshalMessage`, and the handler that the bytes find.

A message is encoded by the server's codec and put into a packet: a little-endian type in front of it, or a text packet.
The text packet is encoded by the codec too, but it is always decoded as JSON; and proto cannot encode it at all. The
payload of a text packet is a string, in which JSON replaces what is not UTF-8. A marshaler that the application sets is
used for sending; the unmarshaler that goes with it is never called.

The codecs are parameters with what their documentation says about packets (`Libraries`).
-/
import LuluExt.Lib.Go

namespace LuluExt.Websocket

abbrev Bytes := List UInt8

variable {M : Type}

/-! ## Packets -/

def putUint32 (t : UInt32) : Bytes :=
  [UInt8.ofNat t.toNat, UInt8.ofNat (t.toNat / 2 ^ 8), UInt8.ofNat (t.toNat / 2 ^ 16), UInt8.ofNat (t.toNat / 2 ^ 24)]

def readUint32 : Bytes → Except GoError (UInt32 × Bytes)
  | a :: b :: c :: d :: rest =>
    .ok (UInt32.ofNat (a.toNat + 2 ^ 8 * b.toNat + 2 ^ 16 * c.toNat + 2 ^ 24 * d.toNat), rest)
  | [] => .error ⟨"EOF"⟩
  | _ => .error ⟨"unexpected EOF"⟩

/-- `Payload` is a string, any bytes -/
structure TextNetPacket where
  type : UInt32
  payload : Bytes
deriving DecidableEq, Repr

theorem readUint32_putUint32 (t : UInt32) (rest : Bytes) : readUint32 (putUint32 t ++ rest) = .ok (t, rest) := by
  have hlt : t.toNat < 2 ^ 32 := t.toNat_lt
  have hsum : t.toNat % 2 ^ 8 + 2 ^ 8 * (t.toNat / 2 ^ 8 % 2 ^ 8) + 2 ^ 16 * (t.toNat / 2 ^ 16 % 2 ^ 8) +
      2 ^ 24 * (t.toNat / 2 ^ 24 % 2 ^ 8) = t.toNat := by omega
  simp only [putUint32, List.cons_append, List.nil_append, readUint32, UInt8.toNat_ofNat', hsum, UInt32.ofNat_toNat]

/-! ## UTF-8 -/

def within (low high b : UInt8) : Bool := low ≤ b && b ≤ high

/-- n bytes of a sequence follow, the first of them between `low` and `high` -/
def follows (low high : UInt8) (n : ℕ) (bs : Bytes) : Bool :=
  (bs.take n).length = n && (bs.take 1).all (within low high) && (bs.take n).all (within 0x80 0xBF)

/-- the length of the encoded rune at the front, 0 if there is none -/
def runeSize : Bytes → ℕ
  | [] => 0
  | a :: bs =>
    if a ≤ 0x7F then 1
    else if within 0xC2 0xDF a then if follows 0x80 0xBF 1 bs then 2 else 0
    else if within 0xE0 0xEF a then
      if follows (if a = 0xE0 then 0xA0 else 0x80) (if a = 0xED then 0x9F else 0xBF) 2 bs then 3 else 0
    else if within 0xF0 0xF4 a then
      if follows (if a = 0xF0 then 0x90 else 0x80) (if a = 0xF4 then 0x8F else 0xBF) 3 bs then 4 else 0
    else 0

def copyRunes : ℕ → Bytes → Bytes
  | _, [] => []
  | left + 1, b :: bs => b :: copyRunes left bs
  | 0, b :: bs =>
    match runeSize (b :: bs) with
    | 0 => 0xEF :: 0xBF :: 0xBD :: copyRunes 0 bs
    | n + 1 => b :: copyRunes n bs

/-- what JSON makes of a string: each byte that is not part of a rune is replaced by U+FFFD -/
def toValidUTF8 (s : Bytes) : Bytes := copyRunes 0 s

/-! ## Codecs -/

inductive Codec where
  | json
  | proto
  | xml
  | yaml
  | toml
deriving DecidableEq, Repr

def isSpace (b : UInt8) : Bool := b = 0x20 || b = 0x09 || b = 0x0A || b = 0x0D

def firstToken (data : Bytes) : Option UInt8 := (data.dropWhile isSpace).head?

/-- the libraries behind the codecs, on messages and on text packets; `unmarshal` is given a fresh value to decode into,
and `jsonPacket` returns what is in the packet afterwards, with an error or without -/
structure Libraries (M : Type) where
  marshal : Codec → M → Except GoError Bytes
  unmarshal : Codec → Bytes → M → Except GoError M
  raw : Bytes → M
  marshalPacket : Codec → TextNetPacket → Except GoError Bytes
  jsonPacket : Bytes → TextNetPacket × Option GoError
  /-- JSON encodes every packet, and its payload comes back as UTF-8 -/
  json_trip : ∀ p, ∃ data, marshalPacket .json p = .ok data ∧
    jsonPacket data = (⟨p.type, toValidUTF8 p.payload⟩, none)
  /-- only an object and null can be decoded into a structure -/
  json_object : ∀ data, (jsonPacket data).2 = none → firstToken data = some 0x7B ∨ firstToken data = some 0x6E
  /-- the element is called like the type -/
  xml_start : ∀ p data, marshalPacket .xml p = .ok data → ∃ rest, data = Go.utf8 "<TextNetPacket>" ++ rest
  /-- keys are in lower case -/
  yaml_start : ∀ p data, marshalPacket .yaml p = .ok data → ∃ rest, data = Go.utf8 "type: " ++ rest
  /-- keys are the fields' names -/
  toml_start : ∀ p data, marshalPacket .toml p = .ok data → ∃ rest, data = Go.utf8 "Type = " ++ rest

/-! ## The server -/

inductive PayloadType where
  | binary
  | text
  | other
deriving DecidableEq, Repr

/-- `creator` is the value that the creator makes, none if it makes nil or there is no creator -/
structure MessageHandlerData (M : Type) where
  handler : M → Option GoError
  creator : Option M

/-- the marshaler and the unmarshaler are those that the application sets; a handler is given by its type -/
structure Server (M : Type) where
  codec : Codec
  payloadType : PayloadType
  messageHandlers : UInt32 → Option (MessageHandlerData M)
  netPacketMarshaler : Option (UInt32 → M → Except GoError Bytes)
  netPacketUnmarshaler : Option (Bytes → Except GoError (UInt32 × M))

section

variable (lib : Libraries M) (s : Server M)

/-- `codec.Marshal(msg)` of a text packet; the packet is no `proto.Message` -/
def codecMarshalPacket (codec : Codec) (msg : TextNetPacket) : Except GoError Bytes :=
  match codec with
  | .proto => .error ⟨"proto: failed to marshal websocket.TextNetPacket — not a proto.Message"⟩
  | codec => lib.marshalPacket codec msg

def defaultMarshalNetPacket (messageType : UInt32) (message : M) : Except GoError Bytes :=
  match lib.marshal s.codec message with
  | .error err => .error err
  | .ok payload =>
    match s.payloadType with
    | .binary => .ok (putUint32 messageType ++ payload)
    | .text => codecMarshalPacket lib s.codec ⟨messageType, payload⟩
    | .other => .error ⟨"unknown payload type"⟩

def marshalMessage (messageType : UInt32) (message : M) : Except GoError Bytes :=
  match s.netPacketMarshaler with
  | some marshal => marshal messageType message
  | none => defaultMarshalNetPacket lib s messageType message

def readPacket (payloadType : PayloadType) (buf : Bytes) : Except GoError (UInt32 × Bytes) :=
  match payloadType with
  | .binary => readUint32 buf
  | .text =>
    match lib.jsonPacket buf with
    | (msg, none) => .ok (msg.type, msg.payload)
    | (_, some err) => .error err
  | .other => .ok (0, [])

def decodePayload (h : MessageHandlerData M) (rawPayload : Bytes) : Except GoError M :=
  match h.creator with
  | none => .ok (lib.raw rawPayload)
  | some payload => lib.unmarshal s.codec rawPayload payload

def defaultUnmarshalNetPacket (buf : Bytes) : Except GoError (UInt32 × M) :=
  match readPacket lib s.payloadType buf with
  | .error err => .error err
  | .ok (messageType, rawPayload) =>
    match s.messageHandlers messageType with
    | none => .error ⟨"message handler not found: " ++ toString messageType.toNat⟩
    | some h => (decodePayload lib s h rawPayload).map fun payload => (messageType, payload)

/-- the type again; errors are ignored -/
def extractMessageType (buf : Bytes) (payloadType : PayloadType) : UInt32 :=
  match payloadType with
  | .binary =>
    match readUint32 buf with
    | .ok (messageType, _) => messageType
    | .error _ => 0
  | .text => (lib.jsonPacket buf).1.type
  | .other => 0

/-- the error that is returned, and the handlers that are called, by their types -/
structure Handled (M : Type) where
  err : Option GoError
  calls : List (UInt32 × M)

def defaultHandleSocketRawData (buf : Bytes) : Handled M :=
  match defaultUnmarshalNetPacket lib s buf with
  | .error err => ⟨some err, []⟩
  | .ok (_, payload) =>
    let messageType := extractMessageType lib buf s.payloadType
    match s.messageHandlers messageType with
    | none => ⟨some ⟨"message handler not found"⟩, []⟩
    | some h => ⟨h.handler payload, [(messageType, payload)]⟩

/-- the message is sent, and the bytes call the handler of its type, once and with the message -/
def Delivered (messageType : UInt32) (message : M) : Prop :=
  ∃ buf, marshalMessage lib s messageType message = .ok buf ∧
    (defaultHandleSocketRawData lib s buf).calls = [(messageType, message)]

end

variable {data : Bytes}

section Delivery

variable {lib : Libraries M} {s : Server M} {messageType : UInt32} {message : M}

/-- the second look at the type sees the same -/
theorem extractMessageType_of_readPacket {payloadType : PayloadType} {buf rawPayload : Bytes}
    (h : readPacket lib payloadType buf = .ok (messageType, rawPayload)) :
    extractMessageType lib buf payloadType = messageType := by
  cases payloadType with
  | binary =>
    simp only [readPacket] at h
    simp only [extractMessageType, h]
  | text =>
    simp only [readPacket] at h
    split at h
    case h_1 msg hmsg =>
      simp only [Except.ok.injEq, Prod.mk.injEq] at h
      rw [extractMessageType, hmsg]
      exact h.1
    case h_2 => cases h
  | other =>
    simp only [readPacket, Except.ok.injEq, Prod.mk.injEq] at h
    exact h.1

/-- bytes call the handler if the packet in them has its type and a payload that decodes to the message -/
theorem calls_iff {h : MessageHandlerData M} (hh : s.messageHandlers messageType = some h) (buf : Bytes) :
    (defaultHandleSocketRawData lib s buf).calls = [(messageType, message)] ↔
      ∃ rawPayload, readPacket lib s.payloadType buf = .ok (messageType, rawPayload) ∧
        decodePayload lib s h rawPayload = .ok message := by
  unfold defaultHandleSocketRawData defaultUnmarshalNetPacket
  cases hread : readPacket lib s.payloadType buf with
  | error err => simp
  | ok packet =>
    obtain ⟨found, rawPayload⟩ := packet
    have hextract := extractMessageType_of_readPacket hread
    by_cases hfound : found = messageType
    · subst hfound
      simp only [hh, hextract]
      cases hdecode : decodePayload lib s h rawPayload with
      | error err | ok payload => simp [Except.map, hdecode]
    · cases hhandler : s.messageHandlers found with
      | none => simp [hfound, hhandler]
      | some h' =>
        cases hdecode : decodePayload lib s h' rawPayload with
        | error err => simp [Except.map, hdecode, hfound, hhandler]
        | ok payload => simp [Except.map, hdecode, hextract, hhandler, hfound]

theorem readPacket_err {b : UInt8} (hdata : firstToken data = some b) (hobject : b ≠ 0x7B)
    (hnull : b ≠ 0x6E) : ∃ err, readPacket lib .text data = .error err := by
  rw [readPacket]
  split
  case h_1 msg hmsg =>
    rcases lib.json_object data (by rw [hmsg]) with htoken | htoken
    · exact absurd (Option.some.inj (hdata.symm.trans htoken)) hobject
    · exact absurd (Option.some.inj (hdata.symm.trans htoken)) hnull
  case h_2 msg err hmsg => exact ⟨err, rfl⟩

theorem readPacket_not_json {codec : Codec} (hjson : codec ≠ .json) {p : TextNetPacket}
    (hdata : codecMarshalPacket lib codec p = .ok data) : ∃ err, readPacket lib .text data = .error err := by
  cases codec with
  | json => exact absurd rfl hjson
  | proto => cases hdata
  | xml =>
    obtain ⟨rest, rfl⟩ := lib.xml_start p data hdata
    exact readPacket_err (b := 0x3C) rfl (by decide) (by decide)
  | yaml =>
    obtain ⟨rest, rfl⟩ := lib.yaml_start p data hdata
    exact readPacket_err (b := 0x74) rfl (by decide) (by decide)
  | toml =>
    obtain ⟨rest, rfl⟩ := lib.toml_start p data hdata
    exact readPacket_err (b := 0x54) rfl (by decide) (by decide)

section Default

variable {h : MessageHandlerData M} {payload : Bytes} (hh : s.messageHandlers messageType = some h)
  (hmarshaler : s.netPacketMarshaler = none) (hpayload : lib.marshal s.codec message = .ok payload)

include hh hmarshaler hpayload

theorem delivered_binary_iff (htype : s.payloadType = .binary) :
    Delivered lib s messageType message ↔ decodePayload lib s h payload = .ok message := by
  have hbuf : marshalMessage lib s messageType message = .ok (putUint32 messageType ++ payload) := by
    simp [marshalMessage, hmarshaler, defaultMarshalNetPacket, hpayload, htype]
  simp only [Delivered, hbuf, Except.ok.injEq, exists_eq_left', calls_iff hh, htype, readPacket,
    readUint32_putUint32, Prod.mk.injEq, true_and]

theorem delivered_json_iff (htype : s.payloadType = .text) (hjson : s.codec = .json) :
    Delivered lib s messageType message ↔ decodePayload lib s h (toValidUTF8 payload) = .ok message := by
  obtain ⟨data, hdata, hback⟩ := lib.json_trip ⟨messageType, payload⟩
  have hbuf : marshalMessage lib s messageType message = .ok data := by
    rw [hjson] at hpayload
    simp [marshalMessage, hmarshaler, defaultMarshalNetPacket, hpayload, htype, hjson, codecMarshalPacket, hdata]
  simp only [Delivered, hbuf, Except.ok.injEq, exists_eq_left', calls_iff hh, htype, readPacket, hback,
    Prod.mk.injEq, true_and]

theorem not_delivered_text (htype : s.payloadType = .text) (hjson : s.codec ≠ .json) :
    ¬ Delivered lib s messageType message := by
  rintro ⟨buf, hbuf, hcalls⟩
  simp only [marshalMessage, hmarshaler, defaultMarshalNetPacket, hpayload, htype] at hbuf
  obtain ⟨err, herr⟩ := readPacket_not_json hjson hbuf
  rw [calls_iff hh, htype, herr] at hcalls
  obtain ⟨rawPayload, hread, -⟩ := hcalls
  cases hread

end Default

end Delivery

/-- **When messages are delivered.** With the default marshaler the handler is called once and with the message if and
only if packets are binary, or are text in JSON and the payload is the same when what is not UTF-8 is replaced; and with
a marshaler of the application, if and only if its packets are the server's own, whatever its unmarshaler is. -/
theorem delivered_iff (lib : Libraries M) (s : Server M) (messageType : UInt32) (message : M) (h : MessageHandlerData M)
    (payload : Bytes) (hh : s.messageHandlers messageType = some h)
    (hpayload : lib.marshal s.codec message = .ok payload) (hdecode : decodePayload lib s h payload = .ok message) :
    (s.netPacketMarshaler = none →
      (Delivered lib s messageType message ↔ s.payloadType = .binary ∨
        s.payloadType = .text ∧ s.codec = .json ∧ decodePayload lib s h (toValidUTF8 payload) = .ok message)) ∧
    (∀ marshal buf, s.netPacketMarshaler = some marshal → marshal messageType message = .ok buf →
      (Delivered lib s messageType message ↔ ∃ rawPayload,
        readPacket lib s.payloadType buf = .ok (messageType, rawPayload) ∧
          decodePayload lib s h rawPayload = .ok message)) := by
  constructor
  · intro hmarshaler
    cases htype : s.payloadType with
    | binary => simp [delivered_binary_iff hh hmarshaler hpayload htype, hdecode]
    | text =>
      by_cases hjson : s.codec = .json
      · simp [delivered_json_iff hh hmarshaler hpayload htype hjson, hjson]
      · simp [not_delivered_text hh hmarshaler hpayload htype hjson, hjson]
    | other => simp [Delivered, marshalMessage, hmarshaler, defaultMarshalNetPacket, hpayload, htype]
  · intro marshal buf hmarshaler hbuf
    simp only [Delivered, marshalMessage, hmarshaler, hbuf, Except.ok.injEq, exists_eq_left', calls_iff hh]

/-! ## Plain libraries -/

def plainJson (p : TextNetPacket) : Bytes := 0x7B :: putUint32 p.type ++ (toValidUTF8 p.payload ++ [0x7D])

def plainJsonPacket : Bytes → TextNetPacket × Option GoError
  | 0x7B :: rest =>
    match readUint32 rest with
    | .ok (type, body) => (⟨type, body.dropLast⟩, none)
    | .error err => (⟨0, []⟩, some err)
  | _ => (⟨0, []⟩, some ⟨"invalid character"⟩)

def plainPacket (codec : Codec) (p : TextNetPacket) : Except GoError Bytes :=
  let type := Go.utf8 (toString p.type.toNat)
  match codec with
  | .json => .ok (plainJson p)
  | .proto => .error ⟨"not a proto.Message"⟩
  | .xml => .ok (Go.utf8 "<TextNetPacket>" ++ (Go.utf8 "<type>" ++ type ++ Go.utf8 "</type><payload>" ++ p.payload ++
      Go.utf8 "</payload></TextNetPacket>"))
  | .yaml => .ok (Go.utf8 "type: " ++ (type ++ Go.utf8 "\npayload: " ++ p.payload ++ Go.utf8 "\n"))
  | .toml => .ok (Go.utf8 "Type = " ++ (type ++ Go.utf8 "\nPayload = \"" ++ p.payload ++ Go.utf8 "\"\n"))

theorem plain_trip (p : TextNetPacket) : ∃ data, plainPacket .json p = .ok data ∧
    plainJsonPacket data = (⟨p.type, toValidUTF8 p.payload⟩, none) := by
  refine ⟨plainJson p, rfl, ?_⟩
  rw [plainJson, List.cons_append, plainJsonPacket, readUint32_putUint32]
  simp

theorem plain_object (data : Bytes) (h : (plainJsonPacket data).2 = none) :
    firstToken data = some 0x7B ∨ firstToken data = some 0x6E := by
  unfold plainJsonPacket at h
  split at h
  · exact Or.inl rfl
  · cases h

theorem plain_start {start rest : Bytes} (h : (.ok (start ++ rest) : Except GoError Bytes) = .ok data) :
    ∃ rest, data = start ++ rest :=
  ⟨rest, (Except.ok.inj h).symm⟩

def plain : Libraries Bytes where
  marshal _ m := .ok m
  unmarshal _ data _ := .ok data
  raw b := b
  marshalPacket := plainPacket
  jsonPacket := plainJsonPacket
  json_trip := plain_trip
  json_object := plain_object
  xml_start _ _ := plain_start
  yaml_start _ _ := plain_start
  toml_start _ _ := plain_start

def server (codec : Codec) (payloadType : PayloadType) : Server Bytes where
  codec := codec
  payloadType := payloadType
  messageHandlers t := if t = 1 then some ⟨fun _ => none, some []⟩ else none
  netPacketMarshaler := none
  netPacketUnmarshaler := none

theorem hello_delivered : Delivered plain (server .json .text) 1 (Go.utf8 "hello") :=
  ((delivered_iff plain (server .json .text) 1 (Go.utf8 "hello") ⟨fun _ => none, some []⟩ (Go.utf8 "hello") rfl rfl
    rfl).1 rfl).2 (Or.inr ⟨rfl, rfl, by decide⟩)

def bigEndian (s : Server Bytes) : Server Bytes :=
  { s with
    netPacketMarshaler := some fun t m => .ok ((putUint32 t).reverse ++ m)
    netPacketUnmarshaler := some fun buf => readUint32 ((buf.take 4).reverse ++ buf.drop 4) }

/-- the handlers that are called when a message of type 1 is sent to the server itself; none if it cannot be sent -/
def echoed (s : Server Bytes) (m : Bytes) : Option (List (UInt32 × Bytes)) :=
  (marshalMessage plain s 1 m).toOption.map fun buf => (defaultHandleSocketRawData plain s buf).calls

/-- **Undelivered messages.** Text packets cannot be sent with proto, and with xml, yaml and toml no handler is called
for them; in JSON a byte that is not UTF-8 arrives as U+FFFD; and a marshaler with another byte order is not understood.
-/
theorem undelivered_messages :
    echoed (server .proto .text) [104, 105] = none ∧
    echoed (server .xml .text) [104, 105] = some [] ∧
    echoed (server .yaml .text) [104, 105] = some [] ∧
    echoed (server .toml .text) [104, 105] = some [] ∧
    echoed (server .json .text) [0x22, 0xFF, 0x22] = some [(1, [0x22, 0xEF, 0xBF, 0xBD, 0x22])] ∧
    echoed (bigEndian (server .json .binary)) [104, 105] = some [] ∧
    (marshalMessage plain (bigEndian (server .json .binary)) 1 [104, 105]).toOption = some [0, 0, 0, 1, 104, 105] ∧
    (bigEndian (server .json .binary)).netPacketUnmarshaler.map (fun unmarshal =>
      (unmarshal [0, 0, 0, 1, 104, 105]).toOption) = some (some (1, [104, 105])) := by
  decide

end LuluExt.Websocket
