/-
SSE events: their fields, what the server makes of a payload, and the parts of the code that look at one event only.

Slices are lists of bytes; nil and empty are not told apart, as the code only takes lengths. `hasContent` decides
whether an event is logged and `ends` whether the response loop of a subscriber stops at it: the two do not ask about
the same fields.
-/
import LuluExt.Lib.Go
import LuluExt.Lib.Base64

namespace LuluExt.Sse

abbrev Bytes := List UInt8

structure Event where
  /-- nanoseconds; set when the event is logged -/
  timestamp : ℕ
  id : Bytes
  data : Bytes
  event : Bytes
  retry : Bytes
  comment : Bytes
deriving DecidableEq, Repr

def Event.empty : Event := ⟨0, [], [], [], [], []⟩

namespace Event

def hasContent (e : Event) : Bool := e.id ≠ [] || e.data ≠ [] || e.event ≠ [] || e.retry ≠ []

def encodeBase64 (e : Event) : Event := if e.data.length > 0 then { e with data := Base64.encode e.data } else e

/-- the response loop leaves at this event -/
def ends (e : Event) : Bool := e.data = [] && e.comment = []

end Event

/-! ## Metadata and payloads -/

def setField (set : Event → Bytes → Event) (value : Bytes) (e : Event) : Event := if value ≠ [] then set e value else e

def withEventID (id : Bytes) : Event → Event := setField (fun e v => { e with id := v }) id

def withEventName (name : Bytes) : Event → Event := setField (fun e v => { e with event := v }) name

def withEventRetry (retry : Bytes) : Event → Event := setField (fun e v => { e with retry := v }) retry

def withEventComment (comment : Bytes) : Event → Event := setField (fun e v => { e with comment := v }) comment

def marshalEvent {α : Type} (marshal : α → Except GoError Bytes) (data : Option α) : Except GoError Event :=
  match data with
  | none => .ok .empty
  | some payload => (marshal payload).map fun d => { Event.empty with data := d }

/-- the event of `PublishDataWithMeta` and `NotifyDataWithMeta`; of `PublishData` and `NotifyData` without options, and
of the variants with an event name with that one option -/
def eventOf {α : Type} (marshal : α → Except GoError Bytes) (data : Option α) (opts : List (Event → Event)) :
    Except GoError Event :=
  (marshalEvent marshal data).map fun e => opts.foldl (fun e o => o e) e

/-! ## Base64 and the two notions of empty -/

variable (e : Event)

@[simp] theorem data_encodeBase64 : e.encodeBase64.data = Base64.encode e.data := by
  unfold Event.encodeBase64
  split_ifs with h
  · rfl
  · have hnil : e.data = [] := List.length_eq_zero_iff.1 (by omega)
    simp [hnil]

@[simp] theorem comment_encodeBase64 : e.encodeBase64.comment = e.comment := by
  unfold Event.encodeBase64
  split_ifs <;> rfl

@[simp] theorem ends_encodeBase64 : e.encodeBase64.ends = e.ends := by simp [Event.ends]

end LuluExt.Sse
