/-
Message bodies on the wire: `broker.Marshal`, `broker.Unmarshal`, and how subscribers decode.

A body is a Go value with its dynamic type. A subscriber binds a fresh pointer p and decodes into `&body`, the address
of the interface variable that holds p, not into p. What becomes of that depends on the codec:
- json follows the pointer inside the interface, except for the literal null, which clears the interface;
- proto asserts that `*interface{}` is a message, which it is not;
- without a codec neither `*[]byte` nor `*string` matches, so gob decodes into an interface.

json, proto and gob are parameters with what their documentation says about them (`Libraries`), among it that they round
trip when they are given the concrete pointer.
-/
import LuluExt.Lib.Go

namespace LuluExt.Broker

inductive Typ where
  | bytes
  | string
  /-- a generated structure; a pointer to it is a `proto.Message` -/
  | message (name : String)
  /-- any other type that is neither a pointer nor an interface -/
  | named (name : String)
  | iface
  | ptr (t : Typ)
deriving DecidableEq, Repr

/-- as `%T` prints it -/
def Typ.name : Typ → String
  | .bytes => "[]uint8"
  | .string => "string"
  | .message n => n
  | .named n => n
  | .iface => "interface \x7b\x7d"
  | .ptr t => "*" ++ t.name

abbrev Slice := Option (List UInt8)

/-- a Go value; pointers carry what they point to, and `χ` is what structures hold -/
inductive Value (χ : Type) where
  | bytes (b : Slice)
  | string (b : List UInt8)
  | message (name : String) (fields : χ)
  | named (name : String) (fields : χ)
  | nilPtr (t : Typ)
  | ptr (target : Value χ)
  /-- an interface variable; it is reached through a pointer -/
  | iface (held : Option (Value χ))

namespace Value

variable {χ : Type}

def typ : Value χ → Typ
  | .bytes _ => .bytes
  | .string _ => .string
  | .message n _ => .message n
  | .named n _ => .named n
  | .nilPtr t => .ptr t
  | .ptr v => .ptr v.typ
  | .iface _ => .iface

def isPtr : Value χ → Bool
  | .nilPtr _ => true
  | .ptr _ => true
  | _ => false

/-- what gob sends: pointers are flattened -/
def base : Value χ → Value χ
  | .ptr v => v.base
  | v => v

end Value

inductive Codec where
  | json
  | proto
deriving DecidableEq, Repr

def null : List UInt8 := [110, 117, 108, 108]

/-- the libraries behind the codecs. An `unmarshal` is given a variable (through a pointer to it) and returns what the
variable holds afterwards. -/
structure Libraries (χ : Type) where
  zero : Typ → Value χ
  jsonMarshal : Value χ → Except GoError (List UInt8)
  jsonUnmarshal : List UInt8 → Value χ → Except GoError (Value χ)
  protoMarshal : Value χ → Except GoError Slice
  protoUnmarshal : List UInt8 → Value χ → Except GoError (Value χ)
  gobEncode : Value χ → Except GoError (List UInt8)
  gobDecode : List UInt8 → Value χ → Except GoError (Value χ)
  /-- json round trips through a fresh variable of the type sent, or of the type pointed to -/
  json_trip : ∀ {v u : Value χ} {data}, jsonMarshal v = .ok data → u = v ∨ v = .ptr u →
    jsonUnmarshal data (zero u.typ) = .ok u
  /-- json follows a pointer that an interface holds, for what it has made -/
  json_follow : ∀ {sent v : Value χ} {data}, jsonMarshal sent = .ok data → data ≠ null ∨ v.isPtr →
    jsonUnmarshal data (.iface (some (.ptr v))) = (jsonUnmarshal data v).map fun v => .iface (some (.ptr v))
  /-- and clears the interface on null, unless the pointer is to a pointer -/
  json_clear : ∀ {v : Value χ}, v.isPtr = false → jsonUnmarshal null (.iface (some (.ptr v))) = .ok (.iface none)
  zero_isPtr : ∀ v : Value χ, (zero v.typ).isPtr = v.isPtr
  /-- an interface variable can only be decoded from a value that was sent as an interface -/
  gob_concrete : ∀ {v : Value χ} {data}, gobEncode v = .ok data → v.base.typ ≠ .iface →
    ∀ b r, gobDecode data (.iface b) ≠ .ok r
  /-- and then holds what that interface held -/
  gob_held : ∀ {v : Value χ} {data h}, gobEncode v = .ok data → v.base = .iface h →
    ∀ b r, gobDecode data (.iface b) = .ok r → r = .iface h
  /-- bytes that gob finds in a stream are fewer than the stream has: a type name comes before them -/
  gob_inner : ∀ {v : Value χ} {data b}, gobDecode data (.iface b) = .ok (.iface (some (.ptr v))) →
    v ≠ .bytes (some data) ∧ v ≠ .string data

section

variable {χ : Type} (lib : Libraries χ)

/-! ## The codecs -/

/-- `Marshal` of the proto codec: the value must be a message -/
def protoMarshal (v : Value χ) : Except GoError Slice :=
  match v.typ with
  | .ptr (.message _) => lib.protoMarshal v
  | t => .error ⟨"proto: failed to marshal " ++ t.name ++ " — not a proto.Message"⟩

/-- `Unmarshal` of the proto codec, into the variable that its argument points to -/
def protoUnmarshal (data : List UInt8) (out : Value χ) : Except GoError (Value χ) :=
  match out.typ with
  | .message _ => lib.protoUnmarshal data out
  | t => .error ⟨"proto: failed to unmarshal into *" ++ t.name ++ " — not a proto.Message"⟩

def codecMarshal (codec : Codec) (v : Value χ) : Except GoError Slice :=
  match codec with
  | .json => (lib.jsonMarshal v).map some
  | .proto => protoMarshal lib v

def codecUnmarshal (codec : Codec) (data : List UInt8) (out : Value χ) : Except GoError (Value χ) :=
  match codec with
  | .json => lib.jsonUnmarshal data out
  | .proto => protoUnmarshal lib data out

/-! ## Marshal and Unmarshal -/

def marshal (codec : Option Codec) (msg : Option (Value χ)) : Except GoError Slice :=
  match msg with
  | none => .error ⟨"message is nil"⟩
  | some v =>
    match codec with
    | some c => codecMarshal lib c v
    | none =>
      match v with
      | .bytes b => .ok b
      | .string b => .ok (some b)
      | v => (lib.gobEncode v).map some

/-- `outValue` is the variable it points to -/
def unmarshal (codec : Option Codec) (inputData : Slice) (outValue : Option (Value χ)) : Except GoError (Value χ) :=
  match inputData, outValue with
  | none, _ => .error ⟨"inputData is nil"⟩
  | _, none => .error ⟨"outValue is nil; must be a pointer to the target value"⟩
  | some data, some out =>
    match codec with
    | some c => codecUnmarshal lib c data out
    | none =>
      match out with
      | .bytes _ => .ok (.bytes (some data))
      | .string _ => .ok (.string data)
      | out => lib.gobDecode data out

/-! ## Subscribers -/

def Value.held : Value χ → Option (Value χ)
  | .iface v => v
  | _ => none

/-- `body = binder(); broker.Unmarshal(codec, data, &body)`: the body afterwards -/
def decodeBody (codec : Option Codec) (binder : Value χ) (data : Slice) : Except GoError (Option (Value χ)) :=
  (unmarshal lib codec data (some (.iface (some binder)))).map Value.held

/-- the nats subscriber asks the codec for its name, and for proto asserts that the binder made a message; `none` is a
panic -/
def natsDecode (codec : Option Codec) (binder : Value χ) (data : Slice) :
    Option (Except GoError (Option (Value χ))) :=
  match codec with
  | none => none
  | some .proto =>
    match binder.typ with
    | .ptr (.message _) => some (decodeBody lib (some .proto) binder data)
    | _ => none
  | some .json => some (decodeBody lib (some .json) binder data)

/-- a subscriber is bound to the type sent, or, where a pointer is sent, to the type it points to -/
def Binds (v u : Value χ) : Prop := u = v ∨ v = .ptr u

def binderFor (u : Value χ) : Value χ := .ptr (lib.zero u.typ)

/-- the body a subscriber is left with points to what was sent -/
def Arrives (codec : Option Codec) (data : Slice) (u : Value χ) : Prop :=
  decodeBody lib codec (binderFor lib u) data = .ok (some (.ptr u))

def NatsArrives (codec : Option Codec) (data : Slice) (u : Value χ) : Prop :=
  natsDecode lib codec (binderFor lib u) data = some (.ok (some (.ptr u)))

/-! ## What arrives -/

theorem held_eq_some {r v : Value χ} : r.held = some v ↔ r = .iface (some v) := by
  cases r <;> simp [Value.held]

theorem sizeOf_base_le (v : Value χ) : sizeOf v.base ≤ sizeOf v := by
  induction v using Value.base.induct with
  | case1 v ih =>
    rw [Value.base]
    simp only [Value.ptr.sizeOf_spec]
    omega
  | case2 v h => rw [Value.base.eq_2 v h]

theorem base_ne_held {v u : Value χ} (hu : Binds v u) : v.base ≠ .iface (some (.ptr u)) := by
  intro h
  have hle := sizeOf_base_le v
  rw [h] at hle
  rcases hu with rfl | rfl <;> simp at hle <;> omega

variable {lib}

theorem json_arrives_iff {v u : Value χ} {data : List UInt8} (hm : lib.jsonMarshal v = .ok data) (hu : Binds v u) :
    Arrives lib (some .json) (some data) u ↔ data ≠ null ∨ u.isPtr := by
  simp only [Arrives, decodeBody, binderFor, unmarshal, codecUnmarshal]
  by_cases hfollow : data ≠ null ∨ u.isPtr
  · rw [lib.json_follow hm (by rwa [lib.zero_isPtr]), lib.json_trip hm hu]
    simp [Except.map, Value.held, hfollow]
  · obtain ⟨hnull, hptr⟩ := not_or.1 hfollow
    rw [not_ne_iff.1 hnull, lib.json_clear (by simpa [lib.zero_isPtr] using hptr)]
    simp [Except.map, Value.held, hptr]

theorem proto_not_arrives (data : Slice) (u : Value χ) : ¬ Arrives lib (some .proto) data u := by
  cases data with
  | none => simp [Arrives, decodeBody, unmarshal, Except.map]
  | some data => simp [Arrives, decodeBody, unmarshal, codecUnmarshal, protoUnmarshal, Value.typ, Except.map]

theorem raw_not_arrives {v u : Value χ} {data : Slice} (hm : marshal lib none (some v) = .ok data) (hu : Binds v u) :
    ¬ Arrives lib none data u := by
  intro h
  cases data with
  | none => simp [Arrives, decodeBody, unmarshal, Except.map] at h
  | some data =>
    simp only [Arrives, decodeBody, Go.map_eq_ok, held_eq_some] at h
    obtain ⟨r, hr, rfl⟩ := h
    -- what was sent decides how: the bytes themselves, or a gob stream
    have hgob : ∀ w : Value χ, w = v → lib.gobEncode w = .ok data → False := by
      intro w hw henc
      subst hw
      by_cases hi : w.base.typ = .iface
      · obtain ⟨x, hx⟩ : ∃ x, w.base = .iface x := by
          cases hb : w.base <;> simp [hb, Value.typ] at hi
          exact ⟨_, rfl⟩
        have := lib.gob_held henc hx _ _ hr
        exact base_ne_held hu (hx.trans this.symm)
      · exact lib.gob_concrete henc hi _ _ hr
    cases v with
    | bytes b =>
      have hb : b = some data := by simpa [marshal] using hm
      have hu' : u = .bytes (some data) := by simpa [Binds, hb] using hu
      exact (lib.gob_inner hr).1 hu'
    | string b =>
      have hb : b = data := by simpa [marshal] using hm
      have hu' : u = .string data := by simpa [Binds, hb] using hu
      exact (lib.gob_inner hr).2 hu'
    | message n x | named n x | nilPtr t | ptr w => exact hgob _ rfl (by simpa [marshal, Go.map_eq_ok] using hm)
    | iface x => exact hgob _ rfl (by simpa [marshal, Go.map_eq_ok] using hm)

/-- **Which bodies arrive.** A body that `Marshal` encodes arrives if and only if the codec is json and the body is not
encoded as null, or the subscriber is bound to a pointer type, for which null is a value. The nats subscriber agrees,
but panics where there is no codec. -/
theorem roundTrip_iff (lib : Libraries χ) (codec : Option Codec) (v u : Value χ) (data : Slice)
    (hm : marshal lib codec (some v) = .ok data) (hu : Binds v u) :
    (Arrives lib codec data u ↔ codec = some .json ∧ (data ≠ some null ∨ u.isPtr)) ∧
    (NatsArrives lib codec data u ↔ codec = some .json ∧ (data ≠ some null ∨ u.isPtr)) := by
  match codec with
  | none => exact ⟨by simp [raw_not_arrives hm hu], by simp [NatsArrives, natsDecode]⟩
  | some .proto =>
    have hlost : ∀ b : Value χ, b = binderFor lib u → decodeBody lib (some .proto) b data ≠ .ok (some (.ptr u)) := by
      intro b hb
      subst hb
      exact proto_not_arrives data u
    refine ⟨by simp [proto_not_arrives], ?_⟩
    simp only [NatsArrives, natsDecode]
    split <;> simp [hlost _ rfl]
  | some .json =>
    obtain ⟨d, hd, rfl⟩ := Go.map_eq_ok.1 (show (lib.jsonMarshal v).map some = .ok data from hm)
    have hjson := json_arrives_iff hd hu
    exact ⟨by simpa using hjson, by simpa [NatsArrives, natsDecode, Arrives] using hjson⟩

end

/-! ## Bodies that do not arrive -/

/-- json of the small library: a structure is its one byte, nil bytes are null -/
def plainJson (data : List UInt8) : Value UInt8 → Except GoError (Value UInt8)
  | .iface (some (.ptr v)) =>
    if data = null ∧ v.isPtr = false then .ok (.iface none)
    else (plainJson data v).map fun v => .iface (some (.ptr v))
  | .named n _ =>
    match data with
    | [x] => .ok (.named n x)
    | _ => .error ⟨"json: cannot unmarshal"⟩
  | .bytes _ => if data = null then .ok (.bytes none) else .error ⟨"json: cannot unmarshal"⟩
  | _ => .error ⟨"json: cannot unmarshal"⟩

def plain : Libraries UInt8 where
  zero
    | .bytes => .bytes none
    | .string => .string []
    | .message n => .message n 0
    | .named n => .named n 0
    | .iface => .iface none
    | .ptr t => .nilPtr t
  jsonMarshal
    | .named _ x => .ok [x]
    | .bytes none => .ok null
    | _ => .error ⟨"json: unsupported type"⟩
  jsonUnmarshal := plainJson
  protoMarshal
    | .ptr (.message _ x) => .ok (some [x])
    | _ => .ok none
  protoUnmarshal
    | [x], .message n _ => .ok (.message n x)
    | _, _ => .error ⟨"proto: cannot parse"⟩
  gobEncode
    | .named _ x => .ok [x]
    | _ => .error ⟨"gob: type not registered"⟩
  gobDecode
    | [x], .named n _ => .ok (.named n x)
    | _, .iface _ => .error ⟨"gob: local interface type can only be decoded from remote interface type"⟩
    | _, _ => .error ⟨"gob: wrong type"⟩
  json_trip := by
    intro v u data hm hu
    match v with
    | .named n x =>
      obtain rfl : [x] = data := by simpa using hm
      obtain rfl : u = .named n x := by simpa using hu
      rfl
    | .bytes none =>
      obtain rfl : null = data := by simpa using hm
      obtain rfl : u = .bytes none := by simpa using hu
      rfl
  json_follow := by
    intro _ v data _ h
    rw [plainJson, if_neg]
    rintro ⟨hnull, hptr⟩
    simp [hnull, hptr] at h
  json_clear := by
    intro v hv
    rw [plainJson, if_pos ⟨rfl, hv⟩]
  zero_isPtr v := by cases v <;> rfl
  gob_concrete := by simp
  gob_held := by simp
  gob_inner := by simp

/-- a structure sent with json, to a subscriber bound to its type -/
theorem roundTrip_order : Arrives plain (some .json) (some [7]) (.named "Order" 7) :=
  (roundTrip_iff plain (some .json) (.named "Order" 7) (.named "Order" 7) (some [7]) rfl (.inl rfl)).1.2
    ⟨rfl, .inl (by decide)⟩

/-- **Bodies that are sent and do not arrive.** A message sent with proto; bytes, text and a structure sent without a
codec; and nil bytes sent with json, after which the body is nil. -/
theorem lost_bodies :
    (marshal plain (some .proto) (some (.ptr (.message "pb.Order" 7))) = .ok (some [7]) ∧
      decodeBody plain (some .proto) (binderFor plain (.message "pb.Order" 7)) (some [7]) =
        .error ⟨"proto: failed to unmarshal into *interface \x7b\x7d — not a proto.Message"⟩) ∧
    (marshal plain none (some (.bytes (some [104, 105]))) = .ok (some [104, 105]) ∧
      ¬ Arrives plain none (some [104, 105]) (.bytes (some [104, 105]))) ∧
    (marshal plain none (some (.string [104, 105])) = .ok (some [104, 105]) ∧
      ¬ Arrives plain none (some [104, 105]) (.string [104, 105])) ∧
    (marshal plain none (some (.named "Order" 7)) = .ok (some [7]) ∧
      ¬ Arrives plain none (some [7]) (.named "Order" 7)) ∧
    (marshal plain (some .json) (some (.bytes none)) = .ok (some null) ∧
      decodeBody plain (some .json) (binderFor plain (.bytes none)) (some null) = .ok none) := by
  refine ⟨⟨rfl, rfl⟩, ⟨rfl, ?_⟩, ⟨rfl, ?_⟩, ⟨rfl, ?_⟩, ⟨rfl, ?_⟩⟩
  · exact raw_not_arrives rfl (.inl rfl)
  · exact raw_not_arrives rfl (.inl rfl)
  · exact raw_not_arrives rfl (.inl rfl)
  · rfl

end LuluExt.Broker
