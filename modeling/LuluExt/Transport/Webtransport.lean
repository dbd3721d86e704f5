/-
Frames and packets of the WebTransport server.

A session is a stream of frames: four bytes of length, the lowest first, and so many bytes. Frames of length zero are
skipped. The bytes of a frame are a packet: four bytes of type and the body. `serveSession` reads a frame with
`io.ReadFull`, whatever pieces the stream comes in, into a buffer that it uses for all frames and replaces when it is
too small, and gives it to `messageHandler`; an error there is logged and the session goes on. `Unmarshal` copies, so
that a handler may keep its payload. The binary packets of the websocket and webrtc packages are built the same way.

- `Packets`: unmarshalling fails exactly below four bytes, and is the inverse of marshalling.
-/
import LuluExt.Lib.Chunked
import LuluExt.Transport.Websocket.Message

namespace LuluExt

open Websocket (Bytes putUint32 readUint32)

/-! ## Packets -/

def marshalPacket (type : UInt32) (body : Bytes) : Bytes := putUint32 type ++ body

/-- the type and the body that are read, or the error -/
def unmarshalPacket (buf : Bytes) : Except GoError (UInt32 × Bytes) := readUint32 buf

/-- into a packet: the error, and the packet afterwards -/
def unmarshalInto {μ : Type} (mk : UInt32 → Bytes → μ) (m : μ) (buf : Bytes) : Option GoError × μ :=
  match unmarshalPacket buf with
  | .error err => (some err, m)
  | .ok (type, body) => (none, mk type body)

theorem putUint32_length (t : UInt32) : (putUint32 t).length = 4 := rfl

theorem unmarshal_marshal (type : UInt32) (body : Bytes) :
    unmarshalPacket (marshalPacket type body) = .ok (type, body) :=
  Websocket.readUint32_putUint32 type body

theorem unmarshal_error_iff (buf : Bytes) : (∃ e, unmarshalPacket buf = .error e) ↔ buf.length < 4 := by
  unfold unmarshalPacket
  rcases buf with _ | ⟨a, _ | ⟨b, _ | ⟨c, _ | ⟨d, rest⟩⟩⟩⟩ <;> simp [readUint32]

def littleEndian (a b c d : UInt8) : ℕ := a.toNat + 2 ^ 8 * b.toNat + 2 ^ 16 * c.toNat + 2 ^ 24 * d.toNat

variable (a b c d : UInt8)

theorem littleEndian_lt : littleEndian a b c d < 2 ^ 32 := by
  have ha := a.toNat_lt
  have hb := b.toNat_lt
  have hc := c.toNat_lt
  have hd := d.toNat_lt
  unfold littleEndian
  omega

theorem putUint32_littleEndian : putUint32 (UInt32.ofNat (littleEndian a b c d)) = [a, b, c, d] := by
  have ha := a.toNat_lt
  have hb := b.toNat_lt
  have hc := c.toNat_lt
  have hd := d.toNat_lt
  have hn : (UInt32.ofNat (littleEndian a b c d)).toNat = littleEndian a b c d := by
    rw [UInt32.toNat_ofNat', Nat.mod_eq_of_lt (littleEndian_lt a b c d)]
  have hbyte : ∀ (x : UInt8) (n : ℕ), n % 2 ^ 8 = x.toNat → UInt8.ofNat n = x := by
    intro x n h
    apply UInt8.toNat_inj.1
    rw [UInt8.toNat_ofNat', h]
  rw [putUint32, hn, littleEndian, hbyte a _ (by omega), hbyte b _ (by omega), hbyte c _ (by omega),
    hbyte d _ (by omega)]

theorem marshal_unmarshal {buf : Bytes} {type : UInt32} {body : Bytes} (h : unmarshalPacket buf = .ok (type, body)) :
    marshalPacket type body = buf := by
  rcases buf with _ | ⟨a, _ | ⟨b, _ | ⟨c, _ | ⟨d, rest⟩⟩⟩⟩
  · cases h
  · cases h
  · cases h
  · cases h
  · obtain ⟨rfl, rfl⟩ := Prod.mk.inj (Except.ok.inj h)
    change putUint32 (UInt32.ofNat (littleEndian a b c d)) ++ rest = _
    rw [putUint32_littleEndian]
    rfl

/-! ### The three packet types -/

namespace Websocket

structure BinaryNetPacket where
  type : UInt32
  payload : Bytes
deriving DecidableEq, Repr

def BinaryNetPacket.marshal (m : BinaryNetPacket) : Bytes := marshalPacket m.type m.payload

def BinaryNetPacket.unmarshal (m : BinaryNetPacket) (buf : Bytes) : Option GoError × BinaryNetPacket :=
  unmarshalInto BinaryNetPacket.mk m buf

end Websocket

namespace Webrtc

structure BinaryNetPacket where
  type : UInt32
  payload : Bytes
deriving DecidableEq, Repr

def BinaryNetPacket.marshal (m : BinaryNetPacket) : Bytes := marshalPacket m.type m.payload

def BinaryNetPacket.unmarshal (m : BinaryNetPacket) (buf : Bytes) : Option GoError × BinaryNetPacket :=
  unmarshalInto BinaryNetPacket.mk m buf

end Webrtc

namespace Webtransport

structure Message where
  type : UInt32
  body : Bytes
deriving DecidableEq, Repr

def Message.marshal (m : Message) : Bytes := marshalPacket m.type m.body

def Message.unmarshal (m : Message) (buf : Bytes) : Option GoError × Message :=
  unmarshalInto Message.mk m buf

end Webtransport

/-- a packet type with its two methods: unmarshalling fails exactly below four bytes, else it inverts marshalling -/
structure Packets {μ : Type} (marshal : μ → Bytes) (unmarshal : μ → Bytes → Option GoError × μ) : Prop where
  fails_iff : ∀ m buf, (unmarshal m buf).1 ≠ none ↔ buf.length < 4
  marshal_unmarshal : ∀ m buf, 4 ≤ buf.length → marshal (unmarshal m buf).2 = buf
  unmarshal_marshal : ∀ m m', unmarshal m (marshal m') = (none, m')

theorem packets_of {μ : Type} {marshal : μ → Bytes} {unmarshal : μ → Bytes → Option GoError × μ}
    (e : μ ≃ UInt32 × Bytes) (hmarshal : ∀ m, marshal m = marshalPacket (e m).1 (e m).2)
    (hunmarshal : ∀ m buf, unmarshal m buf = unmarshalInto (fun type body => e.symm (type, body)) m buf) :
    Packets marshal unmarshal where
  fails_iff m buf := by
    rw [← unmarshal_error_iff, hunmarshal, unmarshalInto]
    cases unmarshalPacket buf <;> simp
  marshal_unmarshal m buf hbuf := by
    rw [hunmarshal, unmarshalInto]
    cases h : unmarshalPacket buf with
    | error err => exact absurd ((unmarshal_error_iff buf).1 ⟨err, h⟩) (not_lt.2 hbuf)
    | ok p =>
      rw [hmarshal, e.apply_symm_apply]
      exact LuluExt.marshal_unmarshal h
  unmarshal_marshal m m' := by
    rw [hunmarshal, hmarshal, unmarshalInto, LuluExt.unmarshal_marshal]
    exact congrArg (Prod.mk none) (e.symm_apply_apply m')

theorem websocket_packets : Packets Websocket.BinaryNetPacket.marshal Websocket.BinaryNetPacket.unmarshal :=
  packets_of ⟨fun m => (m.type, m.payload), fun p => ⟨p.1, p.2⟩, fun _ => rfl, fun _ => rfl⟩ (fun _ => rfl)
    (fun _ _ => rfl)

theorem webrtc_packets : Packets Webrtc.BinaryNetPacket.marshal Webrtc.BinaryNetPacket.unmarshal :=
  packets_of ⟨fun m => (m.type, m.payload), fun p => ⟨p.1, p.2⟩, fun _ => rfl, fun _ => rfl⟩ (fun _ => rfl)
    (fun _ _ => rfl)

theorem webtransport_packets : Packets Webtransport.Message.marshal Webtransport.Message.unmarshal :=
  packets_of ⟨fun m => (m.type, m.body), fun p => ⟨p.1, p.2⟩, fun _ => rfl, fun _ => rfl⟩ (fun _ => rfl)
    (fun _ _ => rfl)

/-! ## Sessions -/

namespace Webtransport

open Chunked

variable {P : Type}

abbrev Memory := List Bytes

/-- `binder` makes a value and lets the codec decode into it; without one the payload is the body itself -/
structure HandlerData (P : Type) where
  handler : P → Option GoError
  binder : Option (Bytes → Except GoError P)

structure Server (P : Type) where
  messageHandlers : UInt32 → Option (HandlerData P)
  raw : Bytes → P

/-- a call of a handler, with the array that the body of its message is in -/
structure HandlerCall (P : Type) where
  type : UInt32
  body : Slice
  payload : P

/-- what a call comes to in a memory: the type, the body as it reads there, and the payload when it was made -/
def HandlerCall.view (mem : Memory) (c : HandlerCall P) : UInt32 × Bytes × P := (c.type, read mem c.body, c.payload)

/-- the memory afterwards, the error it returns, and the call of a handler that it makes -/
def messageHandler (s : Server P) (mem : Memory) (buf : Slice) : Memory × Option GoError × List (HandlerCall P) :=
  -- `network.Write(buf)` copies; `network.Bytes()` is what `binary.Read` has left of it
  let data := read mem buf
  let body : Slice := ⟨mem.length, 4, data.length - 4⟩
  let mem := mem ++ [data]
  match Message.unmarshal ⟨0, []⟩ data with
  | (some err, _) => (mem, some err, [])
  | (none, msg) =>
    match s.messageHandlers msg.type with
    | none => (mem, some ⟨"message handler not found"⟩, [])
    | some h =>
      match h.binder with
      | some decode =>
        match decode (read mem body) with
        | .error err => (mem, some err, [])
        | .ok payload => (mem, h.handler payload, [⟨msg.type, body, payload⟩])
      | none => (mem, h.handler (s.raw (read mem body)), [⟨msg.type, body, s.raw (read mem body)⟩])

/-- `uint(sizeBuf[0]) | uint(sizeBuf[1])<<8 | uint(sizeBuf[2])<<16 | uint(sizeBuf[3])<<24` -/
def msgLen (sizeBuf : Bytes) : ℕ :=
  match sizeBuf with
  | [a, b, c, d] => a.toNat ||| b.toNat <<< 8 ||| c.toNat <<< 16 ||| d.toNat <<< 24
  | _ => 0

/-- `if uint(cap(buf)) < msgLen { buf = make([]byte, msgLen) }` -/
def grow (mem : Memory) (buf n : ℕ) : Memory × ℕ :=
  if cap mem buf < n then (mem ++ [List.replicate n 0], mem.length) else (mem, buf)

structure Session (P : Type) where
  mem : Memory
  calls : List (HandlerCall P)
  panicked : Bool

/-- the loop of `serveSession` over the pieces of the stream; errors of `messageHandler` are logged -/
def serveLoop (s : Server P) (mem : Memory) (buf : ℕ) (stream : List Bytes) : Session P :=
  match _h : readFull stream 4 with
  | none => ⟨mem, [], false⟩
  | some (sizeBuf, stream1) =>
    if msgLen sizeBuf = 0 then serveLoop s mem buf stream1
    else
      let g := grow mem buf (msgLen sizeBuf)
      -- `buf[:msgLen]`
      if cap g.1 g.2 < msgLen sizeBuf then ⟨g.1, [], true⟩
      else
        match _h1 : readFull stream1 (msgLen sizeBuf) with
        | none => ⟨write g.1 g.2 stream1.flatten, [], false⟩
        | some (data, stream2) =>
          let r := messageHandler s (write g.1 g.2 data) ⟨g.2, 0, msgLen sizeBuf⟩
          let rest := serveLoop s r.1 g.2 stream2
          { rest with calls := r.2.2 ++ rest.calls }
termination_by stream.flatten.length
decreasing_by
  · obtain ⟨hlen, happ⟩ := readFull_append _h
    rw [← happ, List.length_append]
    omega
  · obtain ⟨hlen, happ⟩ := readFull_append _h
    obtain ⟨hlen1, happ1⟩ := readFull_append _h1
    rw [← happ, ← happ1, List.length_append, List.length_append]
    omega

def serveSession (s : Server P) (stream : List Bytes) : Session P := serveLoop s [List.replicate 4096 0] 0 stream

theorem msgLen_eq : msgLen [a, b, c, d] = littleEndian a b c d := by
  have ha : a.toNat < 2 ^ 8 := a.toNat_lt
  have hb : b.toNat < 2 ^ 8 := b.toNat_lt
  have hc : c.toNat < 2 ^ 8 := c.toNat_lt
  have h1 : a.toNat ||| b.toNat <<< 8 = a.toNat + 2 ^ 8 * b.toNat := by
    rw [Nat.or_comm, ← Nat.shiftLeft_add_eq_or_of_lt ha, Nat.shiftLeft_eq]
    ring
  have h2 : (a.toNat ||| b.toNat <<< 8) ||| c.toNat <<< 16 = a.toNat + 2 ^ 8 * b.toNat + 2 ^ 16 * c.toNat := by
    rw [h1, Nat.or_comm, ← Nat.shiftLeft_add_eq_or_of_lt (by omega), Nat.shiftLeft_eq]
    ring
  rw [msgLen, h2, Nat.or_comm, ← Nat.shiftLeft_add_eq_or_of_lt (by omega), Nat.shiftLeft_eq, littleEndian]
  ring

theorem msgLen_putUint32 {n : ℕ} (hn : n < 2 ^ 32) : msgLen (putUint32 (UInt32.ofNat n)) = n := by
  have hto : (UInt32.ofNat n).toNat = n := by rw [UInt32.toNat_ofNat', Nat.mod_eq_of_lt hn]
  rw [putUint32, msgLen_eq, littleEndian]
  simp only [UInt8.toNat_ofNat']
  omega

/-! ## Frames -/

def frame (data : Bytes) : Bytes := putUint32 (UInt32.ofNat data.length) ++ data

/-- what is written to a session: a message in its frame, or a frame of length zero -/
inductive Item where
  | message (m : Message)
  | blank
deriving DecidableEq, Repr

def Item.bytes : Item → Bytes
  | .message m => frame m.marshal
  | .blank => frame []

def Item.message? : Item → Option Message
  | .message m => some m
  | .blank => none

def Truncated (tail : Bytes) : Prop := ∃ data, data.length < 2 ^ 32 ∧ tail <+: frame data ∧ tail ≠ frame data

/-! ## The buffer -/

section

variable (s : Server P) {mem : Memory} {buf : ℕ} {stream : List Bytes} {rest : Bytes}

/-- the other arrays are what they were, and the buffer is none of them -/
def Keeps (mem : Memory) (buf : ℕ) (mem' : Memory) (buf' : ℕ) : Prop :=
  ∀ a < mem.length, a ≠ buf → mem'[a]? = mem[a]? ∧ a ≠ buf'

theorem Keeps.refl (mem : Memory) (buf : ℕ) : Keeps mem buf mem buf := fun _ _ ha => ⟨rfl, ha⟩

theorem grow_spec (hbuf : buf < mem.length) (n : ℕ) :
    n ≤ cap (grow mem buf n).1 (grow mem buf n).2 ∧ (grow mem buf n).2 < (grow mem buf n).1.length ∧
      mem.length ≤ (grow mem buf n).1.length ∧ Keeps mem buf (grow mem buf n).1 (grow mem buf n).2 := by
  unfold grow
  split_ifs with hcap
  · refine ⟨by simp [cap], by simp, by simp, fun a ha _ => ⟨List.getElem?_append_left ha, ha.ne⟩⟩
  · exact ⟨not_lt.1 hcap, hbuf, le_rfl, Keeps.refl mem buf⟩

/-- the buffer of a frame: large enough, and only it is written -/
theorem Keeps.write {mem' : Memory} {buf' : ℕ} (h : Keeps mem buf mem' buf') (data : Bytes) :
    Keeps mem buf (write mem' buf' data) buf' := fun a ha hne =>
  ⟨(getElem?_write (h a ha hne).2 data).trans (h a ha hne).1, (h a ha hne).2⟩

theorem serveLoop_eq : serveLoop s mem buf stream =
    match readFull stream 4 with
    | none => ⟨mem, [], false⟩
    | some (sizeBuf, stream1) =>
      if msgLen sizeBuf = 0 then serveLoop s mem buf stream1
      else
        let g := grow mem buf (msgLen sizeBuf)
        if cap g.1 g.2 < msgLen sizeBuf then ⟨g.1, [], true⟩
        else
          match readFull stream1 (msgLen sizeBuf) with
          | none => ⟨write g.1 g.2 stream1.flatten, [], false⟩
          | some (data, stream2) =>
            let r := messageHandler s (write g.1 g.2 data) ⟨g.2, 0, msgLen sizeBuf⟩
            let rest := serveLoop s r.1 g.2 stream2
            { rest with calls := r.2.2 ++ rest.calls } := by
  rw [serveLoop]
  split
  · next hread => rw [hread]
  · next sizeBuf stream1 hread =>
    rw [hread]
    dsimp only
    split_ifs
    · rfl
    · rfl
    · split
      · next hread1 => rw [hread1]
      · next data stream2 hread1 => rw [hread1]

theorem readFull_size {n : UInt32} (h : stream.flatten = putUint32 n ++ rest) :
    ∃ stream1, readFull stream 4 = some (putUint32 n, stream1) ∧ stream1.flatten = rest := by
  obtain ⟨stream1, hread, hrest⟩ := readFull_front h
  exact ⟨stream1, hread, hrest⟩

variable (mem buf) in
theorem serveLoop_blank (h : stream.flatten = frame [] ++ rest) :
    ∃ stream1, stream1.flatten = rest ∧ serveLoop s mem buf stream = serveLoop s mem buf stream1 := by
  obtain ⟨stream1, hread, hrest⟩ := readFull_size h
  refine ⟨stream1, hrest, ?_⟩
  rw [serveLoop_eq, hread]
  exact if_pos rfl

/-- **A frame** is read into a buffer that is large enough, and is there when `messageHandler` is called. -/
theorem serveLoop_frame (hbuf : buf < mem.length) {data : Bytes} (hne : data ≠ []) (hlen : data.length < 2 ^ 32)
    (h : stream.flatten = frame data ++ rest) :
    ∃ mem1 buf1 stream1, stream1.flatten = rest ∧ read mem1 ⟨buf1, 0, data.length⟩ = data ∧
      buf1 < mem1.length ∧ mem.length ≤ mem1.length ∧ Keeps mem buf mem1 buf1 ∧
      serveLoop s mem buf stream =
        let r := messageHandler s mem1 ⟨buf1, 0, data.length⟩
        { serveLoop s r.1 buf1 stream1 with calls := r.2.2 ++ (serveLoop s r.1 buf1 stream1).calls } := by
  rw [frame, List.append_assoc] at h
  obtain ⟨stream1, hread, hrest⟩ := readFull_size h
  obtain ⟨stream2, hread2, hrest2⟩ := readFull_front hrest
  obtain ⟨hcap, hbuf1, hgrown, hkeeps⟩ := grow_spec hbuf data.length
  refine ⟨write (grow mem buf data.length).1 (grow mem buf data.length).2 data, (grow mem buf data.length).2, stream2,
    hrest2, read_write hbuf1 hcap, by rwa [length_write], by rwa [length_write], hkeeps.write data, ?_⟩
  have hzero : data.length ≠ 0 := by simpa using hne
  rw [serveLoop_eq, hread]
  simp only [msgLen_putUint32 hlen, hzero, if_false, not_lt.2 hcap, hread2]

theorem serveLoop_truncated (hbuf : buf < mem.length) (h : Truncated stream.flatten) :
    ∃ mem1 buf1, Keeps mem buf mem1 buf1 ∧ serveLoop s mem buf stream = ⟨mem1, [], false⟩ := by
  obtain ⟨data, hlen, hfront, hne⟩ := h
  have hshort : stream.flatten.length < 4 + data.length := by
    have hle := hfront.length_le
    have hlt : stream.flatten.length ≠ (frame data).length := fun heq => hne (hfront.eq_of_length heq)
    simp only [frame, List.length_append, putUint32_length] at hle hlt
    omega
  by_cases hsize : stream.flatten.length < 4
  · exact ⟨mem, buf, Keeps.refl mem buf, by rw [serveLoop_eq, readFull_none stream 4 hsize]⟩
  · -- the length is there, and part of the data
    obtain ⟨rest, hrest⟩ : ∃ rest, stream.flatten = putUint32 (UInt32.ofNat data.length) ++ rest := by
      obtain ⟨more, hmore⟩ := hfront
      refine ⟨stream.flatten.drop 4, ?_⟩
      have htake := congrArg (List.take 4) hmore
      rw [List.take_append_of_le_length (not_lt.1 hsize), frame, List.take_left' (putUint32_length _)] at htake
      rw [← htake, List.take_append_drop]
    obtain ⟨stream1, hread, hrest1⟩ := readFull_size hrest
    have hlength : stream.flatten.length = 4 + rest.length := by rw [hrest, List.length_append, putUint32_length]
    have hpositive : data.length ≠ 0 := by omega
    obtain ⟨hcap, -, -, hkeeps⟩ := grow_spec hbuf data.length
    refine ⟨_, _, hkeeps.write stream1.flatten, ?_⟩
    rw [serveLoop_eq, hread]
    simp only [msgLen_putUint32 hlen, hpositive, if_false, not_lt.2 hcap,
      readFull_none stream1 data.length (by rw [hrest1]; omega)]

/-! ## Sessions -/

def handlerCalls (s : Server P) (m : Message) : List (UInt32 × Bytes × P) :=
  match s.messageHandlers m.type with
  | none => []
  | some h =>
    match h.binder with
    | some decode =>
      match decode m.body with
      | .error _ => []
      | .ok payload => [(m.type, m.body, payload)]
    | none => [(m.type, m.body, s.raw m.body)]

/-- `messageHandler` works on a copy: in every memory that has it, its calls come to those of the message -/
theorem messageHandler_marshal {buf : Slice} {m : Message} (h : read mem buf = m.marshal) :
    (messageHandler s mem buf).1 = mem ++ [m.marshal] ∧
      ∀ mem' : Memory, mem'[mem.length]? = some m.marshal →
        (messageHandler s mem buf).2.2.map (HandlerCall.view mem') = handlerCalls s m := by
  have hbody : ∀ mem' : Memory, mem'[mem.length]? = some m.marshal →
      read mem' ⟨mem.length, 4, m.marshal.length - 4⟩ = m.body := by
    intro mem' hmem'
    rw [read_of_getElem? hmem', Message.marshal, marshalPacket, List.drop_left' (putUint32_length _),
      List.length_append, putUint32_length, Nat.add_sub_cancel_left, List.take_length]
  have hnow := hbody (mem ++ [m.marshal]) List.getElem?_concat_length
  unfold messageHandler handlerCalls
  simp only [h, webtransport_packets.unmarshal_marshal, hnow]
  cases s.messageHandlers m.type with
  | none => exact ⟨rfl, fun _ _ => rfl⟩
  | some data =>
    cases hb : data.binder with
    | none =>
      simp only [hb]
      exact ⟨trivial, fun mem' hmem' => by simp [HandlerCall.view, hbody mem' hmem']⟩
    | some decode =>
      cases hd : decode m.body with
      | error err => simp [hb, hd]
      | ok payload =>
        simp only [hb, hd]
        exact ⟨trivial, fun mem' hmem' => by simp [HandlerCall.view, hbody mem' hmem']⟩

/-- **The loop** calls the handlers of each message, once and in order, and nothing for the rest of the stream. It
writes to its buffer and to new arrays only, so that afterwards every payload is what it was. -/
theorem serveLoop_items (items : List Item) (hbody : ∀ m, .message m ∈ items → m.body.length < 2 ^ 32 - 4)
    {tail : Bytes} (htail : Truncated tail) (hbuf : buf < mem.length)
    (h : stream.flatten = items.flatMap Item.bytes ++ tail) :
    let r := serveLoop s mem buf stream
    r.panicked = false ∧ (∀ a < mem.length, a ≠ buf → r.mem[a]? = mem[a]?) ∧
      r.calls.map (HandlerCall.view r.mem) = (items.filterMap Item.message?).flatMap (handlerCalls s) := by
  induction items generalizing mem buf stream with
  | nil =>
    have hcut : Truncated stream.flatten := by rwa [h]
    obtain ⟨mem1, buf1, hkeeps, hserve⟩ := serveLoop_truncated s hbuf hcut
    rw [hserve]
    exact ⟨rfl, fun a ha hne => (hkeeps a ha hne).1, rfl⟩
  | cons item items ih =>
    rw [List.flatMap_cons, List.append_assoc] at h
    have hrest : ∀ m, .message m ∈ items → m.body.length < 2 ^ 32 - 4 :=
      fun m hm => hbody m (List.mem_cons_of_mem _ hm)
    cases item with
    | blank =>
      obtain ⟨stream1, hstream1, hserve⟩ := serveLoop_blank s mem buf h
      rw [hserve]
      exact ih hrest hbuf hstream1
    | message m =>
      have hm := hbody m List.mem_cons_self
      have hlen : m.marshal.length = 4 + m.body.length := by
        rw [Message.marshal, marshalPacket, List.length_append, putUint32_length]
      have hne : m.marshal ≠ [] := by
        intro hnil
        rw [hnil, List.length_nil] at hlen
        omega
      obtain ⟨mem1, buf1, stream1, hstream1, hread, hbuf1, hgrown, hkeeps, hserve⟩ :=
        serveLoop_frame s hbuf hne (by omega) h
      obtain ⟨hmem, hcalls⟩ := messageHandler_marshal s hread
      have hbuf2 : buf1 < (messageHandler s mem1 ⟨buf1, 0, m.marshal.length⟩).1.length := by
        rw [hmem, List.length_append]
        exact Nat.lt_add_right _ hbuf1
      obtain ⟨hpanic, hsame, hmore⟩ := ih hrest hbuf2 hstream1
      rw [hserve]
      refine ⟨hpanic, fun a ha hab => ?_, ?_⟩
      · obtain ⟨hold, hbuf⟩ := hkeeps a ha hab
        have ha1 : a < mem1.length := ha.trans_le hgrown
        refine (hsame a (by rw [hmem, List.length_append]; omega) hbuf).trans ?_
        rw [hmem, List.getElem?_append_left ha1, hold]
      · -- the copy is an array of its own, which the rest of the session keeps
        have hcopy := hsame mem1.length (by simp [hmem]) hbuf1.ne'
        rw [List.map_append, hmore, hcalls _ (hcopy.trans (by rw [hmem, List.getElem?_concat_length]))]
        rfl

end

/-- **Framing.** For messages with bodies below 2^32 - 4 bytes, frames of length zero among them and a truncated frame
after them, and every way to cut these bytes into reads: the session calls the handlers of exactly these messages, in
order, each once, and when it is over their bodies are still in memory, though one buffer was used for all frames. And
for the three packet types unmarshalling fails exactly below four bytes and is otherwise the inverse of marshalling. -/
theorem framing :
    (∀ (s : Server P) (items : List Item) (tail : Bytes) (stream : List Bytes),
      (∀ m, .message m ∈ items → m.body.length < 2 ^ 32 - 4) → Truncated tail →
      stream.flatten = items.flatMap Item.bytes ++ tail →
      let r := serveSession s stream
      r.panicked = false ∧
        r.calls.map (HandlerCall.view r.mem) = (items.filterMap Item.message?).flatMap (handlerCalls s) ∧
        ((∀ t, ∃ handler, s.messageHandlers t = some ⟨handler, none⟩) →
          r.calls.map (HandlerCall.view r.mem) =
            (items.filterMap Item.message?).map fun m => (m.type, m.body, s.raw m.body))) ∧
    Packets Websocket.BinaryNetPacket.marshal Websocket.BinaryNetPacket.unmarshal ∧
    Packets Webrtc.BinaryNetPacket.marshal Webrtc.BinaryNetPacket.unmarshal ∧
    Packets Message.marshal Message.unmarshal := by
  refine ⟨fun s items tail stream hbody htail hstream => ?_, websocket_packets, webrtc_packets, webtransport_packets⟩
  have hbuf : 0 < [List.replicate 4096 (0 : UInt8)].length := Nat.one_pos
  obtain ⟨hpanic, -, hcalls⟩ := serveLoop_items s items hbody htail hbuf hstream
  refine ⟨hpanic, hcalls, fun hraw => hcalls.trans ?_⟩
  rw [List.map_eq_flatMap]
  congr 1
  funext m
  obtain ⟨handler, hhandler⟩ := hraw m.type
  simp [handlerCalls, hhandler]

/-- a message that the first buffer is too small for, then a short one in the same buffer -/
def longThenShort : List Item := [.message ⟨1, List.replicate 5000 7⟩, .blank, .message ⟨2, [9]⟩]

/-- byte by byte, and the beginning of another frame: both bodies are there at the end -/
theorem framing_longThenShort :
    let stream := (longThenShort.flatMap Item.bytes ++ [3, 0]).map fun b => [b]
    let r := serveSession ⟨fun _ => some ⟨fun _ => none, none⟩, id⟩ stream
    r.calls.map (HandlerCall.view r.mem) =
      [(1, List.replicate 5000 7, List.replicate 5000 7), (2, [9], [9])] := by
  refine (framing.1 _ longThenShort [3, 0] _ ?_ ?_ ?_).2.2 fun _ => ⟨_, rfl⟩
  · intro m hm
    simp only [longThenShort, List.mem_cons, Item.message.injEq, reduceCtorEq, false_or, List.not_mem_nil,
      or_false] at hm
    rcases hm with rfl | rfl
    · exact (List.length_replicate (n := 5000)).trans_lt (by norm_num)
    · exact (List.length_singleton (a := (9 : UInt8))).trans_lt (by norm_num)
  · exact ⟨[1, 1, 1], by decide, by decide, by decide⟩
  · rw [← List.flatMap_def, List.flatMap_singleton']

end Webtransport

end LuluExt
