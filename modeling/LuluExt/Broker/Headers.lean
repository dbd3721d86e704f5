/-
The headers of a received message, as the handler sees them and as the trace carrier reads them.

Both brokers convert the headers twice. For Kafka the map keeps the last value of a key and the carrier returns the
first one. For RabbitMQ the values are dynamically typed: the map has the empty string for everything that is not a
string, and the carrier formats numbers and byte slices. A key that is absent reads as the empty string on both sides.
-/
import LuluExt.Lib.Assoc
import LuluExt.Lib.Go
import Mathlib.Data.List.AList

namespace LuluExt.Headers

open Assoc

/-! ## Kafka -/

namespace Kafka

/-- a Go string is its bytes -/
structure Header where
  key : String
  value : List UInt8
deriving DecidableEq, Repr

def kafkaHeaderToMap (h : List Header) : String → Option (List UInt8) :=
  h.foldl (fun m v => put m (v.key, v.value)) fun _ => none

def MessageCarrier.get : List Header → String → List UInt8
  | [], _ => []
  | h :: headers, key => if h.key = key then h.value else MessageCarrier.get headers key

/-- `Message.Headers[key]` in the handler -/
def seen (h : List Header) (key : String) : List UInt8 := (kafkaHeaderToMap h key).getD []

def pairs (h : List Header) : List (String × List UInt8) := h.map fun v => (v.key, v.value)

theorem seen_eq (h : List Header) (key : String) : seen h key = (values (pairs h) key).getLast?.getD [] := by
  rw [seen, ← toMap_eq, kafkaHeaderToMap, toMap, pairs, List.foldl_map]

theorem get_eq (h : List Header) (key : String) : MessageCarrier.get h key = (values (pairs h) key).head?.getD [] := by
  rw [← first_eq]
  induction h with
  | nil => rfl
  | cons v h ih =>
    by_cases hv : v.key = key
    · simp [MessageCarrier.get, pairs, first, hv]
    · simpa [MessageCarrier.get, pairs, first, hv] using ih

theorem seen_eq_get_iff (h : List Header) (key : String) :
    seen h key = MessageCarrier.get h key ↔ (values (pairs h) key).getLast? = (values (pairs h) key).head? := by
  rw [seen_eq, get_eq]
  cases values (pairs h) key with
  | nil => exact iff_of_true rfl rfl
  | cons v vs => rw [List.getLast?_cons, List.head?_cons, Option.getD_some, Option.getD_some, Option.some.injEq]

end Kafka

/-! ## RabbitMQ -/

namespace Rabbitmq

inductive Signed
  | int
  | int8
  | int16
  | int32
  | int64
deriving DecidableEq, Repr

inductive Unsigned
  | uint
  | uint8
  | uint16
  | uint32
  | uint64
deriving DecidableEq, Repr

/-- the dynamic types of a table's values; floats are their bits, and everything without a text of its own (nil,
booleans, decimals, times, tables, arrays) is one case -/
inductive Field
  | bytes (b : List UInt8)
  | string (s : List UInt8)
  | signed (type : Signed) (n : ℤ)
  | unsigned (type : Unsigned) (n : ℕ)
  | float32 (bits : UInt32)
  | float64 (bits : UInt64)
  | other
deriving DecidableEq, Repr

/-- `strconv.FormatFloat` for format 'f' and the shortest representation -/
structure FormatFloat where
  float32 : UInt32 → List UInt8
  float64 : UInt64 → List UInt8
  float32_ne_nil : ∀ x, float32 x ≠ []
  float64_ne_nil : ∀ x, float64 x ≠ []

def formatInt (n : ℤ) : List UInt8 := Go.utf8 n.repr

def formatUint (n : ℕ) : List UInt8 := Go.utf8 n.repr

def formatHeaderValue (fmt : FormatFloat) : Field → List UInt8
  | .bytes b => b
  | .string s => s
  | .signed _ n => formatInt n
  | .unsigned _ n => formatUint n
  | .float32 x => fmt.float32 x
  | .float64 x => fmt.float64 x
  | .other => []

def asString : Field → List UInt8
  | .string s => s
  | _ => []

abbrev Table := AList fun _ : String => Field

def rabbitHeaderToMap (h : Table) : String → Option (List UInt8) :=
  h.entries.foldl (fun m x => put m (x.1, asString x.2)) fun _ => none

def ConsumerMessageCarrier.get (fmt : FormatFloat) (h : Table) (key : String) : List UInt8 :=
  match h.entries.find? fun x => x.1 = key with
  | some x => formatHeaderValue fmt x.2
  | none => []

/-- `Message.Headers[key]` in the handler -/
def seen (h : Table) (key : String) : List UInt8 := (rabbitHeaderToMap h key).getD []

/-- a string, or a value that the carrier gives no text either -/
def Field.Textual : Field → Prop
  | .string _ => True
  | .other => True
  | .bytes b => b = []
  | _ => False

theorem utf8_eq_nil_iff (s : String) : Go.utf8 s = [] ↔ s = "" := by
  constructor
  · intro h
    have hsize : s.toByteArray.size = 0 := by
      have hlen := congrArg List.length h
      simpa [Go.utf8] using hlen
    exact String.utf8ByteSize_eq_zero_iff.1 hsize
  · rintro rfl
    rfl

theorem formatUint_ne_nil (n : ℕ) : formatUint n ≠ [] := by
  rw [formatUint, ne_eq, utf8_eq_nil_iff]
  exact Nat.repr_ne_empty

theorem formatInt_ne_nil (n : ℤ) : formatInt n ≠ [] := by
  rw [formatInt, ne_eq, utf8_eq_nil_iff]
  cases n with
  | ofNat m => exact Nat.repr_ne_empty
  | negSucc m =>
    intro h
    have hlen := congrArg String.length h
    simp [Int.repr] at hlen

variable (fmt : FormatFloat)

theorem asString_eq_iff (v : Field) : asString v = formatHeaderValue fmt v ↔ v.Textual := by
  cases v with
  | bytes b => exact eq_comm
  | string s => exact iff_of_true rfl trivial
  | signed type n => exact iff_of_false (formatInt_ne_nil n).symm id
  | unsigned type n => exact iff_of_false (formatUint_ne_nil n).symm id
  | float32 x => exact iff_of_false (fmt.float32_ne_nil x).symm id
  | float64 x => exact iff_of_false (fmt.float64_ne_nil x).symm id
  | other => exact iff_of_true rfl trivial

def pairs (h : Table) : List (String × Field) := h.entries.map fun x => (x.1, x.2)

theorem find_entries (l : List (Sigma fun _ : String => Field)) (key : String) :
    (l.find? fun x => x.1 = key).map (fun x => x.2) = l.dlookup key := by
  induction l with
  | nil => rfl
  | cons x l ih =>
    obtain ⟨k, v⟩ := x
    by_cases hk : k = key
    · subst hk
      simp
    · rw [List.find?_cons_of_neg (by simpa using hk), ih, List.dlookup_cons_ne l ⟨k, v⟩ (Ne.symm hk)]

theorem first_pairs (h : Table) (key : String) : first (pairs h) key = h.lookup key := by
  rw [first, pairs, List.find?_map, Option.map_map]
  exact find_entries h.entries key

theorem seen_eq (h : Table) (key : String) : seen h key = ((h.lookup key).map asString).getD [] := by
  -- the keys of a table are different, so the map has what a search would find
  have hkeys : (((pairs h).map fun x => (x.1, asString x.2)).map Prod.fst).Nodup := by
    rw [pairs, List.map_map, List.map_map]
    exact h.nodupKeys
  have hmap : rabbitHeaderToMap h = toMap ((pairs h).map fun x => (x.1, asString x.2)) := by
    rw [toMap, pairs, List.map_map, List.foldl_map]
    rfl
  rw [seen, hmap, ← first_eq_toMap hkeys, first_map, first_pairs]

theorem get_eq (h : Table) (key : String) :
    ConsumerMessageCarrier.get fmt h key = ((h.lookup key).map (formatHeaderValue fmt)).getD [] := by
  have hfind : (h.entries.find? fun x => x.1 = key).map (fun x => x.2) = h.lookup key := find_entries h.entries key
  rw [← hfind, ConsumerMessageCarrier.get]
  cases h.entries.find? fun x => x.1 = key <;> rfl

theorem seen_eq_get_iff (h : Table) (key : String) :
    seen h key = ConsumerMessageCarrier.get fmt h key ↔ ∀ v, h.lookup key = some v → v.Textual := by
  rw [seen_eq, get_eq]
  cases h.lookup key with
  | none => simp
  | some v => simpa using asString_eq_iff fmt v

end Rabbitmq

/-- **Two views of the headers.** The handler sees what the carrier's `Get` returns if and only if, in Kafka, the first
and the last value of the key are the same, and in RabbitMQ its value, if there is one, is a string or has no text. -/
theorem views_agree_iff (headers : List Kafka.Header) (fmt : Rabbitmq.FormatFloat) (table : Rabbitmq.Table)
    (key : String) :
    (Kafka.seen headers key = Kafka.MessageCarrier.get headers key ↔
      (values (Kafka.pairs headers) key).getLast? = (values (Kafka.pairs headers) key).head?) ∧
    (Rabbitmq.seen table key = Rabbitmq.ConsumerMessageCarrier.get fmt table key ↔
      ∀ v, table.lookup key = some v → v.Textual) :=
  ⟨Kafka.seen_eq_get_iff headers key, Rabbitmq.seen_eq_get_iff fmt table key⟩

def attempts : Rabbitmq.Table := AList.singleton "attempt" (.signed .int32 7)

/-- **A repeated key and a number.** The handler of a Kafka message sees the second value, and the carrier the first
one; a RabbitMQ header with the number 7 is empty for the handler, and `7` for the carrier. -/
theorem views_differ :
    Kafka.seen [⟨"traceparent", [49]⟩, ⟨"traceparent", [50]⟩] "traceparent" = [50] ∧
    Kafka.MessageCarrier.get [⟨"traceparent", [49]⟩, ⟨"traceparent", [50]⟩] "traceparent" = [49] ∧
    Rabbitmq.seen attempts "attempt" = [] ∧
    ∀ fmt, Rabbitmq.ConsumerMessageCarrier.get fmt attempts "attempt" = [55] := by
  refine ⟨by decide, by decide, by decide, fun fmt => ?_⟩
  have hlookup : attempts.lookup "attempt" = some (.signed .int32 7) := by decide
  rw [Rabbitmq.get_eq, hlookup]
  change Rabbitmq.formatInt 7 = [55]
  decide

end LuluExt.Headers
