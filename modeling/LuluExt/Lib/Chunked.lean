/-
Streams that arrive in pieces, and the arrays that they are read into. A reader hands out the pieces one after the
other, each read at most as much of the first piece as it is asked for, and then the end of the stream. A memory is a
list of arrays, each at its address and of a fixed length; a slice is a part of one of them.

- `readFull_front`, `readFull_none`: reading n elements depends on the whole stream only, not on where it is cut;
- `read_write`, `getElem?_write`: what a store leaves, in its array and in the others.
-/
import Mathlib.Tactic

namespace LuluExt.Chunked

variable {α : Type*}

/-- reads until there are n elements, and returns the pieces that are left; `none` at the end of the stream -/
def readFull : List (List α) → ℕ → Option (List α × List (List α))
  | cs, 0 => some ([], cs)
  | [], _ + 1 => none
  | c :: cs, n + 1 =>
    if n + 1 ≤ c.length then some (c.take (n + 1), c.drop (n + 1) :: cs)
    else (readFull cs (n + 1 - c.length)).map fun r => (c ++ r.1, r.2)

theorem readFull_cons (c : List α) (cs : List (List α)) (n : ℕ) (hn : c.length < n) :
    readFull (c :: cs) n = (readFull cs (n - c.length)).map fun r => (c ++ r.1, r.2) := by
  cases n with
  | zero => omega
  | succ n => rw [readFull, if_neg (by omega)]

theorem readFull_head (c : List α) (cs : List (List α)) (n : ℕ) (hn : 0 < n) (hle : n ≤ c.length) :
    readFull (c :: cs) n = some (c.take n, c.drop n :: cs) := by
  cases n with
  | zero => omega
  | succ n => rw [readFull, if_pos hle]

theorem readFull_spec (cs : List (List α)) (n : ℕ) (h : n ≤ cs.flatten.length) :
    ∃ cs', readFull cs n = some (cs.flatten.take n, cs') ∧ cs'.flatten = cs.flatten.drop n := by
  induction cs generalizing n with
  | nil =>
    obtain rfl : n = 0 := by simpa using h
    exact ⟨[], rfl, rfl⟩
  | cons c cs ih =>
    rcases Nat.eq_zero_or_pos n with rfl | hn
    · exact ⟨c :: cs, rfl, by simp⟩
    by_cases hle : n ≤ c.length
    · refine ⟨c.drop n :: cs, ?_, ?_⟩
      · rw [readFull_head c cs n hn hle, List.flatten_cons, List.take_append_of_le_length hle]
      · rw [List.flatten_cons, List.flatten_cons, List.drop_append_of_le_length hle]
    · rw [List.flatten_cons, List.length_append] at h
      obtain ⟨cs', hread, hrest⟩ := ih (n - c.length) (by omega)
      have htake : c.take n = c := List.take_of_length_le (by omega)
      have hdrop : c.drop n = [] := List.drop_of_length_le (by omega)
      refine ⟨cs', ?_, ?_⟩
      · rw [readFull_cons c cs n (by omega), hread, Option.map_some, List.flatten_cons, List.take_append, htake]
      · rw [hrest, List.flatten_cons, List.drop_append, hdrop, List.nil_append]

theorem readFull_none (cs : List (List α)) (n : ℕ) (h : cs.flatten.length < n) : readFull cs n = none := by
  induction cs generalizing n with
  | nil =>
    cases n with
    | zero => simp at h
    | succ n => rfl
  | cons c cs ih =>
    rw [List.flatten_cons, List.length_append] at h
    rw [readFull_cons c cs n (by omega), ih (n - c.length) (by omega), Option.map_none]

theorem readFull_append {cs cs' : List (List α)} {n : ℕ} {d : List α} (h : readFull cs n = some (d, cs')) :
    d.length = n ∧ d ++ cs'.flatten = cs.flatten := by
  have hle : n ≤ cs.flatten.length := by
    by_contra hlt
    rw [readFull_none cs n (not_le.1 hlt)] at h
    cases h
  obtain ⟨cs'', hread, hrest⟩ := readFull_spec cs n hle
  rw [hread] at h
  obtain ⟨rfl, rfl⟩ := Prod.mk.inj (Option.some.inj h)
  exact ⟨List.length_take_of_le hle, by rw [hrest, List.take_append_drop]⟩

/-- **A read from a stream with a known front.** -/
theorem readFull_front {cs : List (List α)} {d rest : List α} (h : cs.flatten = d ++ rest) :
    ∃ cs', readFull cs d.length = some (d, cs') ∧ cs'.flatten = rest := by
  obtain ⟨cs', hread, hrest⟩ := readFull_spec cs d.length (by simp [h])
  rw [h, List.take_left] at hread
  rw [h, List.drop_left] at hrest
  exact ⟨cs', hread, hrest⟩

/-! ## Arrays -/

structure Slice where
  addr : ℕ
  off : ℕ
  len : ℕ
deriving DecidableEq, Repr

variable (mem : List (List α)) (s : Slice)

def cap (addr : ℕ) : ℕ := (mem.getD addr []).length

def read : List α := ((mem.getD s.addr []).drop s.off).take s.len

/-- stores at the beginning of an array, as much as there is room for -/
def write (addr : ℕ) (d : List α) : List (List α) := mem.modify addr fun a => d.take a.length ++ a.drop d.length

variable {mem s}

theorem read_of_getElem? {a : List α} (h : mem[s.addr]? = some a) : read mem s = (a.drop s.off).take s.len := by
  simp [read, h]

theorem getElem?_write {addr addr' : ℕ} (h : addr' ≠ addr) (d : List α) : (write mem addr d)[addr']? = mem[addr']? :=
  List.getElem?_modify_ne _ mem (Ne.symm h)

theorem length_write (addr : ℕ) (d : List α) : (write mem addr d).length = mem.length := List.length_modify ..

theorem read_write {addr : ℕ} {d : List α} (haddr : addr < mem.length) (h : d.length ≤ cap mem addr) :
    read (write mem addr d) ⟨addr, 0, d.length⟩ = d := by
  have hwrite : (write mem addr d)[addr]? = some (d.take mem[addr].length ++ mem[addr].drop d.length) := by
    rw [write, List.getElem?_modify_eq, List.getElem?_eq_getElem haddr]
    rfl
  have hcap : d.length ≤ mem[addr].length := by simpa [cap, haddr] using h
  rw [read_of_getElem? hwrite, List.drop_zero, List.take_of_length_le hcap, List.take_left]

end LuluExt.Chunked
