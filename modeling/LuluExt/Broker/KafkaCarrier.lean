/-
The trace carrier of the Kafka broker, through which the propagators inject and extract.

`Get` returns the first header of a key. `Set` cuts out every header of the key while it walks the slice, with a step
back after each cut, and appends the new one. A message may have any number of headers with one key. Keys and values are
bytes, as Go strings are.
-/
import LuluExt.Broker.Headers

namespace LuluExt.KafkaCarrier

open Assoc

abbrev GoString := List UInt8

structure Header where
  key : GoString
  value : GoString
deriving DecidableEq, Repr

variable (headers : List Header) (key : GoString)

def get : List Header → GoString → GoString
  | [], _ => []
  | h :: headers, key => if h.key = key then h.value else get headers key

def set (val : GoString) : List Header := Go.deleteFrom (fun h => h.key = key) headers 0 ++ [⟨key, val⟩]

def pairs : List (GoString × GoString) := headers.map fun h => (h.key, h.value)

/-! ## One Set -/

theorem set_eq (val : GoString) : set headers key val = headers.filter (fun h => h.key ≠ key) ++ [⟨key, val⟩] := by
  rw [set, Go.deleteFrom_eq]
  simp

theorem pairs_set (val : GoString) :
    pairs (set headers key val) = (pairs headers).filter (fun x => x.1 ≠ key) ++ [(key, val)] := by
  rw [set_eq, pairs, List.map_append, pairs, List.filter_map]
  rfl

theorem get_eq : get headers key = (first (pairs headers) key).getD [] := by
  induction headers with
  | nil => rfl
  | cons h headers ih =>
    by_cases hk : h.key = key
    · simp [get, pairs, first, hk]
    · simpa [get, pairs, first, hk] using ih

/-- **Set is an update of the map** from keys to their first values. -/
theorem first_set (val : GoString) : first (pairs (set headers key val)) = put (first (pairs headers)) (key, val) := by
  funext key'
  rw [first_eq, pairs_set, values_replace, put]
  split_ifs with hk
  · rw [hk, Function.update_self]
    rfl
  · rw [Function.update_of_ne hk, first_eq]

theorem get_set_self (val : GoString) : get (set headers key val) key = val := by
  rw [get_eq, first_set, put, Function.update_self]
  rfl

theorem get_set_of_ne (val : GoString) {key' : GoString} (h : key' ≠ key) :
    get (set headers key val) key' = get headers key' := by
  rw [get_eq, first_set, put, Function.update_of_ne h, get_eq]

theorem others_set (val : GoString) :
    (set headers key val).filter (fun h => h.key ≠ key) = headers.filter fun h => h.key ≠ key := by
  rw [set_eq]
  simp

/-- **Set.** For every list of headers, all keys and all values: afterwards the key has exactly one header and Get
returns the value; the other headers are those that were there, in their order, so that every other key reads as before;
and a second Set of the key leaves nothing of the first. -/
theorem set_laws (val : GoString) :
    (set headers key val).countP (fun h => h.key = key) = 1 ∧
    get (set headers key val) key = val ∧
    (set headers key val).filter (fun h => h.key ≠ key) = headers.filter (fun h => h.key ≠ key) ∧
    (∀ key' ≠ key, get (set headers key val) key' = get headers key') ∧
    ∀ val2, set (set headers key val) key val2 = set headers key val2 := by
  refine ⟨?_, get_set_self headers key val, others_set headers key val, ?_, ?_⟩
  · rw [set_eq]
    simp
  · intro key' h
    exact get_set_of_ne headers key val h
  · intro val2
    rw [set_eq _ _ val2, others_set, ← set_eq]

/-- two headers of the key beside each other and one at the end -/
def duplicates : List Header := [⟨[107], [1]⟩, ⟨[107], [2]⟩, ⟨[97], [3]⟩, ⟨[107], [4]⟩]

theorem set_laws_duplicates : get (set duplicates [107] [5]) [97] = get duplicates [97] :=
  (set_laws duplicates [107] [5]).2.2.2.1 [97] (by decide)

end LuluExt.KafkaCarrier
